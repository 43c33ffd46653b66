import ShardVault.Json.Fields
import ShardVault.Json.Reader
import ShardVault.Json.Writer
import ShardVault.Text.Encoding
import ShardVault.Time.Reader

namespace ShardVault

/-- A document as text, or as bytes whose encoding is to be found out. -/
inductive Document
  | text (t : Text)
  | bytes (bs : Bytes)

namespace Document

def corrupt {α : Type} (fault : RecordFault) : Except Failure α :=
  .error (.corruptMetadata fault)

def ofField {α : Type} (field : Except FieldFault α) : Except Failure α :=
  field.mapError fun fault => .corruptMetadata (.field fault)

def toText? : Document → Option Text
  | text t => some t
  | bytes bs => Encoding.decode bs

def fields (document : Document) : Except Failure (Entries Json) :=
  match document.toText? with
  | none => corrupt .notJson
  | some t =>
    match Json.ofText t with
    | .ok (.object fields) => .ok fields
    | .ok _ => corrupt .notObject
    | .error .malformed => corrupt .notJson
    | .error .tooDeep => .error .tooDeep
    | .error (.tooManyDigits count) => .error (.invalid (.numeral (.tooManyDigits count)))

def readTime (t : Text) : Except Failure DateTime :=
  match DateTime.ofText? t with
  | some time => .ok time
  | none => corrupt (.timestamp t)

def readStatus (t : Text) : Except Failure FileStatus :=
  match FileStatus.ofName? t with
  | some status => .ok status
  | none => corrupt (.status t)

def ofOption : Option Text → Json
  | some t => .text t
  | none => .null

end Document

end ShardVault
