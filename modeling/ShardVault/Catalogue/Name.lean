import ShardVault.Failure
import ShardVault.Json.Basic
import ShardVault.Text.Letter

namespace ShardVault

/-- What is asked of a text in a named field. -/
structure TextRule where
  field : Text := "value"
  least : Int := 0
  most : Int := 1000
  allowEmpty : Bool := false

namespace TextRule

/-- A text that meets the rule. The checks come in this order, and the first that fails is
reported. -/
def checkText (rule : TextRule) (t : Text) : Except ValidationFault Text :=
  if !rule.allowEmpty && t.isEmpty then .error (.empty rule.field)
  else if (t.length : Int) < rule.least then .error (.tooShort rule.field rule.least)
  else if rule.most < t.length then .error (.tooLong rule.field rule.most)
  else if t.contains (CodePoint.ofNat 0) then .error (.holdsNul rule.field)
  else .ok t

def check (rule : TextRule) : Json → Except Failure Text
  | .text t => (rule.checkText t).mapError .validation
  | _ => .error (.validation (.notText rule.field))

/-- The rule for the names of files: not empty and at most 255 code points. -/
def fileName : TextRule := { field := "file_name", most := 255 }

end TextRule

def mimeTypes : List (Text × Text) := [
  ("jpg", "image/jpeg"), ("jpeg", "image/jpeg"), ("png", "image/png"), ("gif", "image/gif"),
  ("pdf", "application/pdf"), ("doc", "application/msword"),
  ("docx", "application/vnd.openxmlformats-officedocument.wordprocessingml.document"),
  ("xls", "application/vnd.ms-excel"),
  ("xlsx", "application/vnd.openxmlformats-officedocument.spreadsheetml.sheet"),
  ("mp4", "video/mp4"), ("mp3", "audio/mpeg"), ("zip", "application/zip"), ("txt", "text/plain")]

/-- The kind of content that a name suggests: by what follows its last point, in any case. -/
def mimeType (name : Text) : Text :=
  let kind? := (name.afterLast? '.').map Text.lower
  (kind?.bind fun kind => List.lookup kind mimeTypes).getD "application/octet-stream"

end ShardVault
