import ShardVault.Failure

namespace ShardVault

/-- A value, or a failure of one of the families. -/
inductive Outcome (α : Type) where
  | ok (value : α)
  | err (failure : Failure) (family : Family)

namespace Outcome

def attempt {α : Type} : Except Failure α → Except Failure (Outcome α)
  | .ok value => .ok (.ok value)
  | .error failure =>
    match failure.family? with
    | some family => .ok (.err failure family)
    | none => .error failure

def isOk {α : Type} : Outcome α → Bool
  | ok _ => true
  | err _ _ => false

def unwrap {α : Type} : Outcome α → Except Failure α
  | ok value => .ok value
  | err failure _ => .error failure

end Outcome

end ShardVault
