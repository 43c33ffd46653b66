import ShardVault.Text.Letter
import ShardVault.Text.Quoted
import ShardVault.Text.Utf8

namespace ShardVault

/-- The kinds of hosts that a program runs on, by the way they write paths. -/
inductive Host
  | posix
  | windows
  deriving DecidableEq, Repr

/-- A path without empty names. Only paths of a Windows host have drives. -/
structure Path where
  host : Host
  drive : Text
  root : Text
  names : List Text
  deriving DecidableEq, Repr

namespace Path

def namesOf (mark : CodePoint) (t : Text) : List Text :=
  (t.splitOn mark).filter fun name => !name.isEmpty && name != "."

/-- The root that leading slashes stand for: two of them are kept, and more count as one. -/
def rootOf (t : Text) : Text :=
  match (t.takeWhile (· == CodePoint.ofChar '/')).length with
  | 0 => []
  | 2 => "//"
  | _ => "/"

def ofText (t : Text) : Path :=
  ⟨.posix, [], rootOf t, namesOf (CodePoint.ofChar '/') t⟩

def backslash : CodePoint := CodePoint.ofChar '\\'

def turned (t : Text) : Text :=
  t.map fun c => if c = CodePoint.ofChar '/' then backslash else c

/-- The mark of an extended path and what follows it. Of the longer mark, which announces a server,
one backslash counts twice. -/
def cutMark (t : Text) : Text × Text :=
  if ("\\\\?\\UNC\\" : Text).isPrefixOf t then (t.take 7, backslash :: t.drop 7)
  else if ("\\\\?\\" : Text).isPrefixOf t then (t.take 4, t.drop 4)
  else ([], t)

def cutShare? (t : Text) : Option (Text × Text) :=
  let server := (t.drop 2).takeWhile (· != backslash)
  let share := (t.drop (3 + server.length)).takeWhile (· != backslash)
  let size := 3 + server.length + share.length
  if ("\\\\" : Text).isPrefixOf t && !server.isEmpty && 2 + server.length < t.length &&
      (!share.isEmpty || size = t.length) then
    some (t.take size, t.drop (size + 1))
  else none

/-- The letter of a drive with its colon, if there is one, and what follows it. -/
def cutLetter (t : Text) : Text × Text :=
  if t.head?.any (·.isAsciiLetter) && (t.drop 1).head? = some (CodePoint.ofChar ':') then t.splitAt 2
  else ([], t)

def ofWindows (t : Text) : Path :=
  let (mark, rest) := cutMark (turned t)
  match cutShare? rest with
  | some (share, rest) =>
    let drive := if mark.isEmpty then share else mark ++ share.drop 1
    ⟨.windows, drive, [backslash], namesOf backslash rest⟩
  | none =>
    let (letter, rest) := cutLetter rest
    let root := if rest.head? = some backslash then [backslash] else []
    ⟨.windows, mark ++ letter, root, namesOf backslash rest⟩

def below (base : Path) (names : List Text) : Path :=
  { base with names := base.names ++ names }

/-- A path taken from another one. What the second says of drive and root comes before what the
first says. -/
def join (base path : Path) : Path :=
  if path.drive.isEmpty then
    if path.root.isEmpty then base.below path.names else { path with drive := base.drive }
  else if path.root.isEmpty && path.drive.lower == base.drive.lower then base.below path.names
  else path

def isAbsolute (p : Path) : Bool :=
  !p.root.isEmpty && (p.host == .posix || !p.drive.isEmpty)

def separator (p : Path) : Text :=
  match p.host with
  | .posix => "/"
  | .windows => [backslash]

def shown (p : Path) : Text :=
  let start := p.drive ++ p.root
  if start.isEmpty && p.names.isEmpty then "." else start ++ Text.join p.separator p.names

def nameLimit : Nat := 255

/-- The greatest count of bytes in a path, without those of the directory that it starts from. -/
def sizeLimit : Nat := 4078

def isLongName (name : Text) : Bool :=
  nameLimit < (Utf8.encodeAll name).length

def isLong (p : Path) : Bool :=
  sizeLimit < (Utf8.encodeAll p.shown).length

def holdsNul (p : Path) : Bool :=
  p.names.any fun name => name.any (·.val = 0)

/-- A path as it stands in descriptions, where its separators are slashes. -/
def quoted (p : Path) : Text :=
  match p.host with
  | .posix => "PosixPath(" ++ p.shown.quoted ++ ")"
  | .windows =>
    let slashed : Text := p.shown.map fun c => if c = backslash then CodePoint.ofChar '/' else c
    "WindowsPath(" ++ slashed.quoted ++ ")"

/-- Cut a text of a Windows host behind its drive, which may be a server with what it shares. -/
def splitDrive (t : Text) : Text × Text :=
  let plain := turned t
  if ("\\\\" : Text).isPrefixOf plain then
    let start := if Text.upper (plain.take 8) = "\\\\?\\UNC\\" then 8 else 2
    let server := (plain.drop start).takeWhile (· != backslash)
    let share := (plain.drop (start + server.length + 1)).takeWhile (· != backslash)
    t.splitAt (start + server.length + 1 + share.length)
  else if (t.drop 1).head? = some (CodePoint.ofChar ':') then t.splitAt 2
  else ([], t)

def isSlash (c : CodePoint) : Bool :=
  c = backslash || c = CodePoint.ofChar '/'

/-- A text of a Windows host taken from another one, with what both say of a drive. -/
def joinTexts (base t : Text) : Text :=
  let (baseDrive, basePath) := splitDrive base
  let (ownDrive, ownPath) := splitDrive t
  let drive := if ownDrive.isEmpty then baseDrive else ownDrive
  let path :=
    if ownPath.head?.any isSlash then ownPath
    else if !ownDrive.isEmpty && ownDrive.lower != baseDrive.lower then ownPath
    else if basePath.isEmpty || basePath.getLast?.any isSlash then basePath ++ ownPath
    else basePath ++ backslash :: ownPath
  if path.isEmpty || path.head?.any isSlash || drive.isEmpty ||
    drive.getLast? = some (CodePoint.ofChar ':') then drive ++ path
  else drive ++ backslash :: path

end Path

def Host.path (host : Host) (t : Text) : Path :=
  match host with
  | .posix => Path.ofText t
  | .windows => Path.ofWindows t

end ShardVault
