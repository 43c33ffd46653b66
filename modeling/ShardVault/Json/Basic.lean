import ShardVault.Binary64
import ShardVault.Entries

namespace ShardVault

inductive Json where
  | null
  | bool (b : Bool)
  | int (n : Int)
  | real (x : Binary64)
  | text (t : Text)
  | list (items : List Json)
  | object (fields : List (Text × Json))
  deriving Inhabited, Repr

end ShardVault
