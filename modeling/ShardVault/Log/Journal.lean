import ShardVault.Config.Path

namespace ShardVault.Log

/-- A text that grows piece by piece, with the count of its bytes. The pieces are held backwards. -/
structure Page where
  pieces : List Text
  size : Nat

namespace Page

def empty : Page := ⟨[], 0⟩

def add (p : Page) (piece : Text) : Page :=
  ⟨piece :: p.pieces, p.size + (Utf8.encodeAll piece).length⟩

def toText (p : Page) : Text :=
  p.pieces.reverse.flatten

end Page

/-- A log file, its limit and the count of its backups, and what it and its backups hold. -/
structure Journal where
  path : Path
  limit : Int
  backups : Int
  current : Page
  old : List Page

namespace Journal

inductive Fault
  /-- The path may lead out of the directory that the file is put in. -/
  | outside
  | holdsNul
  | tooLong
  deriving DecidableEq, Repr

def of (path : Path) (limit backups : Int) : Except Fault Journal :=
  if path.names.contains ".." then .error .outside
  else if path.holdsNul then .error .holdsNul
  else if path.isLong || path.names.any Path.isLongName then .error .tooLong
  else .ok ⟨path, limit, backups, .empty, []⟩

/-- Would an entry make the file reach its limit? Bytes that are there and code points that are to
come count. -/
def isFull (j : Journal) (entry : Text) : Bool :=
  0 < j.limit ∧ j.limit ≤ j.current.size + entry.length

def ending (number : Nat) : Text :=
  "." ++ Text.ofNat number

def rolled? (j : Journal) : Option Journal :=
  if j.backups ≤ 0 then some j
  else
    let last := min (j.old.length + 1) j.backups.toNat
    if Path.isLongName ((j.path.names.getLast?.getD []) ++ ending last) then none
    else some { j with current := .empty, old := (j.current :: j.old).take j.backups.toNat }

def write (j : Journal) (line : Text) : Journal :=
  let entry := line ++ "\n"
  match if j.isFull entry then j.rolled? else some j with
  | some ready => { ready with current := ready.current.add entry }
  | none => j

/-- A text as a reader of lines sees it: a carriage return ends a line, and so does a line feed that
does not follow one. -/
def asRead (afterReturn : Bool) : Text → Text
  | [] => []
  | c :: t =>
    if c = CodePoint.ofChar '\r' then CodePoint.ofChar '\n' :: asRead true t
    else if afterReturn && c == CodePoint.ofChar '\n' then asRead false t
    else c :: asRead false t

def files (j : Journal) : List (Text × Text) :=
  (j.path.shown, asRead false j.current.toText) ::
    j.old.mapIdx fun i page => (j.path.shown ++ ending (i + 1), asRead false page.toText)

end Journal

end ShardVault.Log
