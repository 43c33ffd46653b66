import ShardVault.Failure
import ShardVault.Json.Basic

namespace ShardVault.Json

def hasType : FieldType → Json → Bool
  | .text, .text _ => true
  | .int, .int _ => true
  | .list, .list _ => true
  | _, _ => false

/-- The value of a key that must be there and have a type; null passes too if it is optional. -/
def require (fields : Entries Json) (key : Text) (expected : FieldType) (optional : Bool) :
    Except FieldFault Json :=
  match fields.get? key with
  | none => .error (.missing key)
  | some null => if optional then .ok null else .error (.wrongType key expected)
  | some value => if value.hasType expected then .ok value else .error (.wrongType key expected)

def requireText (fields : Entries Json) (key : Text) : Except FieldFault Text :=
  match fields.get? key with
  | none => .error (.missing key)
  | some (text t) => .ok t
  | some _ => .error (.wrongType key .text)

def requireText? (fields : Entries Json) (key : Text) : Except FieldFault (Option Text) :=
  match fields.get? key with
  | none => .error (.missing key)
  | some null => .ok none
  | some (text t) => .ok (some t)
  | some _ => .error (.wrongType key .text)

def requireInt (fields : Entries Json) (key : Text) : Except FieldFault Int :=
  match fields.get? key with
  | none => .error (.missing key)
  | some (int n) => .ok n
  | some _ => .error (.wrongType key .int)

def requireList (fields : Entries Json) (key : Text) : Except FieldFault (List Json) :=
  match fields.get? key with
  | none => .error (.missing key)
  | some (list items) => .ok items
  | some _ => .error (.wrongType key .list)

end ShardVault.Json
