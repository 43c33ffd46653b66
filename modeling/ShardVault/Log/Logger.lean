import ShardVault.Config.Section
import ShardVault.Log.Journal
import ShardVault.Log.Record
import ShardVault.Text.Letter

namespace ShardVault.Log

structure Setup where
  level : Text := "INFO"
  toConsole : Bool := true
  toFile : Bool := true
  asJson : Bool := false
  maxFileSize : Int := 10485760
  backups : Int := 5

def Setup.ofSection (s : LogSection) : Setup :=
  ⟨s.level, s.toConsole, s.toFile, s.asJson, s.maxFileSize, s.backupCount⟩

/-- A logger: its name and level, whether it writes to a console and what stands there, and its file
with the form of its lines. -/
structure Logger where
  name : Text
  level : Int
  toConsole : Bool
  shown : Page
  file : Option (Journal × Form)

inductive SetupFault
  | noSuchLevel (name : Text)
  | notLevel (named : Text)
  | notText (shown : Text)
  | file (fault : Journal.Fault)
  deriving DecidableEq, Repr

def SetupFault.message? : SetupFault → Option Text
  | noSuchLevel name => some ("module 'logging' has no attribute '" ++ name ++ "'")
  | notLevel named => some ("Unknown level: " ++ named.quoted)
  | notText shown => some ("Level not an integer or a valid string: " ++ shown)
  | file .outside => some "Log path cannot contain path traversal sequences"
  | file .holdsNul => some "embedded null byte"
  | file .tooLong => none

def levels : List (Text × Int) :=
  let others : List (Text × Int) := [("WARN", 30), ("FATAL", 50)]
  (levelNames.map fun (level, name) => (name, level)) ++ others

/-- The styles of lines as they are shown: the mark of each, its kind and its usual template. -/
def stylesShown : Text :=
  "\x7b'%': (<class 'logging.PercentStyle'>, '%(levelname)s:%(name)s:%(message)s'), " ++
  "'\x7b': (<class 'logging.StrFormatStyle'>, '\x7blevelname\x7d:\x7bname\x7d:\x7bmessage\x7d'), " ++
  "'$': (<class 'logging.StringTemplateStyle'>, " ++
  "'$\x7blevelname\x7d:$\x7bname\x7d:$\x7bmessage\x7d')\x7d"

def otherSettings : List (Text × SetupFault) := [
  ("BASIC_FORMAT", .notLevel "%(levelname)s:%(name)s:%(message)s"),
  ("_STYLES", .notText stylesShown)]

def levelOf (word : Text) : Except SetupFault Int :=
  match levels.lookup word.upper, otherSettings.lookup word.upper with
  | some level, _ => .ok level
  | none, some fault => .error fault
  | none, none => .error (.noSuchLevel word.upper)

/-- The level from which on loggers write if no level is set, and from which on records are shown
that no logger takes. -/
def defaultLevel : Int := 30

def lowestLevel : Int := 10

namespace Logger

def fileName (name : Text) : Text :=
  name.map (fun c => if c = CodePoint.ofChar '.' then CodePoint.ofChar '_' else c) ++ ".log"

def of (setup : Setup) (name : Text) (directory : Option Path) : Except SetupFault Logger := do
  let level ← levelOf setup.level
  let form := if setup.asJson then Form.object else .file
  match if setup.toFile then directory else none with
  | none => .ok ⟨name, level, setup.toConsole, .empty, none⟩
  | some directory =>
    let path := directory.join (directory.host.path (fileName name))
    let journal ← (Journal.of path setup.maxFileSize setup.backups).mapError .file
    .ok ⟨name, level, setup.toConsole, .empty, some (journal, form)⟩

def isRoot (l : Logger) : Bool :=
  l.name.isEmpty || l.name == "root"

def isEnabledFor (l : Logger) (level : Int) : Bool :=
  let least := if l.level = 0 && !l.isRoot then defaultLevel else l.level
  0 < level && least ≤ level

def fullName (l : Logger) (child : Option Text) : Text :=
  match child with
  | some child => l.name ++ "." ++ child
  | none => if l.isRoot then "root" else l.name

def print (l : Logger) (t : Text) : Logger :=
  { l with shown := l.shown.add (t ++ "\n") }

def onConsole (l : Logger) (r : Record) : Record × Logger :=
  if !l.toConsole then (r, l)
  else
    let r := r.redacted
    match line .console r with
    | .ok t => (r, l.print t)
    | .error _ => (r, l)

def onFile (l : Logger) (r : Record) : Logger :=
  match l.file with
  | none => l
  | some (journal, form) =>
    match line form r.redacted with
    | .ok t => { l with file := some (journal.write t, form) }
    | .error _ => l

def lastResort (l : Logger) (r : Record) : Logger :=
  match r.message with
  | .ok t => if defaultLevel ≤ r.level then l.print (withException r t) else l
  | .error _ => l

def send (l : Logger) (child : Option Text) (r : Record) : Bool × Logger :=
  if !l.isEnabledFor r.level then (false, l)
  else
    let r := { r with logger := l.fullName child }
    if !l.toConsole && l.file.isNone then (true, l.lastResort r)
    else if r.level < lowestLevel then (true, l)
    else
      let (r, l) := l.onConsole r
      (true, l.onFile r)

end Logger

end ShardVault.Log
