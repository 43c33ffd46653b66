import ShardVault.Failure
import ShardVault.Json.Display

namespace ShardVault

def Family.required : Family → List Text
  | integrity => ["message"]
  | notEnoughShards => ["available", "required"]
  | metadataNotFound => ["file_id"]
  | _ => []

/-- The names of the values that a report of a family may give after those that it must give. -/
def Family.optional : Family → List Text
  | integrity => ["chunk_index"]
  | _ => []

/-- A failure of a family: how it is worded, and the values that it keeps under their names. -/
structure Report where
  family : Family
  wording : Text
  details : Entries Json

namespace Report

/-- A count of values that a family has no places for. -/
structure Fault where
  family : Family
  given : Nat
  deriving DecidableEq, Repr

def namesShown (names : List Text) : Text :=
  Text.join " and " (names.map Text.quoted)

def argumentsShown (positional : Text) (count : Nat) : Text :=
  positional ++ " argument" ++ (if count = 1 then ([] : Text) else "s")

/-- Tells which values are missing, or how many may be given. The failure itself counts as the first
of the values that are given. -/
def Fault.message (f : Fault) : Text :=
  let least := f.family.required.length
  let most := least + f.family.optional.length
  let missing := f.family.required.drop f.given
  let range : Text :=
    if least = most then Text.ofNat (most + 1)
    else "from " ++ Text.ofNat (least + 1) ++ " to " ++ Text.ofNat (most + 1)
  f.family.name ++ ".__init__() " ++
    if f.given < least then
      "missing " ++ argumentsShown (Text.ofNat missing.length ++ " required positional")
        missing.length ++ ": " ++ namesShown missing
    else
      "takes " ++ argumentsShown (range ++ " positional") (most + 1) ++ " but " ++
        Text.ofNat (f.given + 1) ++ " were given"

def of (family : Family) (values : List Json) : Except Fault Report :=
  match family, values with
  | .integrity, [message] => .ok ⟨family, message.displayAlone, [("chunk_index", .null)]⟩
  | .integrity, [message, chunk] =>
    .ok ⟨family, message.displayAlone, [("chunk_index", chunk)]⟩
  | .notEnoughShards, [available, required] =>
    .ok ⟨family, Failure.shardsMissing available.displayAlone required.displayAlone,
      [("available", available), ("required", required)]⟩
  | .metadataNotFound, [fileId] =>
    .ok ⟨family, Failure.fileMissing fileId.displayAlone, [("file_id", fileId)]⟩
  | .integrity, _ | .notEnoughShards, _ | .metadataNotFound, _ =>
    .error ⟨family, values.length⟩
  | _, _ => .ok ⟨family, Json.displayAll values, []⟩

def failure (r : Report) : Failure :=
  .reported r.family r.wording

end Report

end ShardVault
