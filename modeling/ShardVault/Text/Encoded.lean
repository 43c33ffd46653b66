import ShardVault.Failure
import ShardVault.Text.Utf8

namespace ShardVault.Text

def encode (t : Text) : Except Failure Bytes :=
  match Utf8.encode t with
  | some bs => .ok bs
  | none => .error .unencodable

def guarded {α : Type} (texts : List Text) (result : α) : Except Failure α :=
  if texts.all isScalar then .ok result else .error .unencodable

def sameDigest (a b : Text) : Except Failure Bool :=
  guarded [a, b] (a == b)

end ShardVault.Text
