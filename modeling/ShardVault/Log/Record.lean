import ShardVault.Json.Writer
import ShardVault.Log.Redaction
import ShardVault.Log.Template
import ShardVault.Time.Stamp

namespace ShardVault.Log

/-- Something to be logged: the template of the message and its values, how grave it is, who tells
it and from where, when it was made, and a description of what went wrong if something did. A value
of any kind may stand for a template. -/
structure Record where
  template : Json
  arguments : Arguments
  level : Int
  logger : Text
  file : Text
  line : Int
  function : Text
  created : Stamp
  exception : Option Text

def levelNames : List (Int × Text) := [
  (0, "NOTSET"), (10, "DEBUG"), (20, "INFO"), (30, "WARNING"), (40, "ERROR"), (50, "CRITICAL")]

def levelName (level : Int) : Text :=
  (levelNames.lookup level).getD ("Level " ++ Text.ofInt level)

/-- The part of a name before its last point, unless there are only points before that. -/
def stem (name : Text) : Text :=
  let isPoint (c : CodePoint) : Bool := c == CodePoint.ofChar '.'
  if name.any isPoint then
    let before := ((name.reverse.dropWhile fun c => !isPoint c).drop 1).reverse
    if before.all isPoint then name else before
  else name

namespace Record

def moduleName (r : Record) : Text :=
  stem ((r.file.afterLast? '/').getD r.file)

def isPlain (r : Record) : Bool :=
  match r.arguments with
  | .ordered values => values.isEmpty
  | .named values => values.isEmpty

def message (r : Record) : Except Template.Fault Text := do
  let template ← Template.written r.template r.template.displayAlone
  if r.isPlain then .ok template else Template.fill template r.arguments

def redactValue : Json → Json
  | .text t => .text (Redaction.sanitize [] t)
  | value => value

def redacted (r : Record) : Record :=
  { r with
    template := redactValue r.template
    arguments :=
      match r.arguments with
      | .ordered values => .ordered (values.map redactValue)
      | .named values => .named (values.map fun (key, value) => (key, redactValue value)) }

end Record

inductive Fault
  | template (fault : Template.Fault)
  | stamp (fault : Stamp.Fault)
  /-- The number of the line of code has more digits than may be written. -/
  | lineNumber
  deriving DecidableEq, Repr

inductive Form
  | console
  | file
  | object
  deriving DecidableEq, Repr

def padRight (width : Nat) (t : Text) : Text :=
  t ++ List.replicate (width - t.length) (CodePoint.ofChar ' ')

/-- A message with the description of what went wrong on a line of its own. -/
def withException (r : Record) (t : Text) : Text :=
  match r.exception with
  | none => t
  | some description =>
    (if t.getLast? = some (CodePoint.ofChar '\n') then t else t ++ "\n") ++ description

def told (r : Record) (time : DateTime) (message : Text) : List (Text × Json) :=
  let always : List (Text × Json) := [("timestamp", .text time.shown),
    ("level", .text (levelName r.level)), ("logger", .text r.logger), ("message", .text message),
    ("module", .text r.moduleName), ("function", .text r.function), ("line", .int r.line)]
  let wrong : List (Text × Json) := r.exception.toList.map fun t => ("exception", .text t)
  always ++ wrong

def fields (form : Form) (r : Record) (time : Civil) : List Text :=
  let clock := time.time.shownToSecond
  let level := padRight 8 (levelName r.level)
  if form = .file then
    [time.dateShown ++ " " ++ clock, level, r.logger,
      r.function ++ ":" ++ Text.ofInt r.line]
  else [clock, level, r.logger]

def line (form : Form) (r : Record) : Except Fault Text :=
  if form = .object then do
    let time ← r.created.dateTime.mapError .stamp
    let message ← r.message.mapError .template
    (Json.encode Json.line (.object (told r time message))).mapError fun _ => .lineNumber
  else do
    let message ← r.message.mapError .template
    let time ← r.created.civil.mapError .stamp
    if !time.isShown then .error (.stamp .years)
    else if form = .file && !(Json.int r.line).isWritable then .error .lineNumber
    else .ok (withException r (Text.join " | " (fields form r time ++ [message])))

end ShardVault.Log
