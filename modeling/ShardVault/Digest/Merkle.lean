import ShardVault.Digest.Sha256
import ShardVault.Text.Encoded

namespace ShardVault.Merkle

def join (left right : Text) : Text :=
  Sha256.hex (Utf8.encodeAll (left ++ right))

def nextLevel : List Text → List Text
  | [] => []
  | [h] => [join h h]
  | h :: h' :: rest => join h h' :: nextLevel rest

def emptyRoot : Text :=
  Sha256.hex []

theorem length_nextLevel : ∀ level : List Text, (nextLevel level).length = (level.length + 1) / 2
  | [] => rfl
  | [_] => by simp [nextLevel]
  | _ :: _ :: rest => by simp [nextLevel, length_nextLevel rest]; omega

def root : List Text → Text
  | [] => emptyRoot
  | [h] => h
  | h :: h' :: rest => root (nextLevel (h :: h' :: rest))
  termination_by level => level.length
  decreasing_by simp [length_nextLevel]; omega

/-- A neighbour on the way to the root, and the side on which it stands. -/
structure Sibling where
  hash : Text
  isLeft : Bool
  deriving DecidableEq, Repr

def siblingAt (level : List Text) (position : Nat) : Sibling :=
  let own := level.getD position []
  if position % 2 = 0 then ⟨level.getD (position + 1) own, false⟩
  else ⟨level.getD (position - 1) own, true⟩

def path (level : List Text) (position : Nat) : List Sibling :=
  if 1 < level.length then
    siblingAt level position :: path (nextLevel level) (position / 2)
  else []
  termination_by level.length
  decreasing_by simp [length_nextLevel]; omega

def climb (leaf : Text) (siblings : List Sibling) : Text :=
  siblings.foldl (fun h s => if s.isLeft then join s.hash h else join h s.hash) leaf

/-- The root over a list of leaves, which must be encodable as soon as there are two. -/
def rootOf (leaves : List Text) : Except Failure Text :=
  Text.guarded (if leaves.length ≤ 1 then [] else leaves) (root leaves)

def pathOf (leaves : List Text) (index : Int) : Except Failure (List Sibling) :=
  if 0 ≤ index ∧ index < leaves.length then
    Text.guarded (if leaves.length ≤ 1 then [] else leaves) (path leaves index.toNat)
  else .error (.outOfRange (.leaf index leaves.length))

def verify (leaf : Text) (siblings : List Sibling) (top : Text) : Except Failure Bool :=
  Text.guarded (leaf :: top :: siblings.map (·.hash)) (climb leaf siblings == top)

end ShardVault.Merkle
