import ShardVault.Config.Path
import ShardVault.Entries

namespace ShardVault

inductive Node
  | file
  | directory (mode : Nat)
  deriving DecidableEq

abbrev FileTree := List (List Text × Node)

namespace FileTree

def empty : FileTree := [([], .directory 0o700)]

inductive Fault
  | notFound
  | notDirectory
  | taken
  | tooLong
  | holdsNul
  deriving DecidableEq

def node? (t : FileTree) (place : List Text) : Option Node :=
  t.lookup place

def put (t : FileTree) (place : List Text) (node : Node) : FileTree :=
  (place, node) :: t.filter fun p => p.1 != place

def walk (t : FileTree) (place : List Text) : List Text → Except Fault (List Text)
  | [] => .ok place
  | name :: names =>
    match t.node? place with
    | some (.directory _) =>
      if Path.isLongName name then .error .tooLong
      else if name = ".." then walk t place.dropLast names
      else walk t (place ++ [name]) names
    | some .file => .error .notDirectory
    | none => .error .notFound

def mode? (t : FileTree) (names : List Text) : Option Nat :=
  match walk t [] names with
  | .ok place =>
    match t.node? place with
    | some (.directory mode) => some mode
    | _ => none
  | .error _ => none

/-- Who may use the directory of a path, if there is one. Nothing can be told of a path that is too
long. -/
def look (t : FileTree) (path : Path) : Except Fault (Option Nat) :=
  if path.holdsNul then .ok none
  else if path.isLong then .error .tooLong
  else
    match walk t [] path.names with
    | .error .tooLong => .error .tooLong
    | _ => .ok (t.mode? path.names)

def makeOne (t : FileTree) (names : List Text) : Except Fault FileTree := do
  let place ← walk t [] names
  match t.node? place with
  | some _ => .error .taken
  | none =>
    match t.node? place.dropLast with
    | some (.directory _) => .ok (t.put place (.directory 0o755))
    | some .file => .error .notDirectory
    | none => .error .notFound

/-- Make a directory if it is not there, and those above it as needed. The names are held
backwards. -/
def make (t : FileTree) : (backwards : List Text) → Except Fault FileTree × FileTree
  | [] => (.ok t, t)
  | name :: above =>
    let names := (name :: above).reverse
    match t.makeOne names with
    | .ok made => (.ok made, made)
    | .error .notFound =>
      match make t above with
      | (.error fault, left) => (.error fault, left)
      | (.ok t, _) =>
        match t.makeOne names with
        | .ok made => (.ok made, made)
        | .error fault => if (t.mode? names).isSome then (.ok t, t) else (.error fault, t)
    | .error fault => if (t.mode? names).isSome then (.ok t, t) else (.error fault, t)

def makeAll (t : FileTree) (path : Path) : Except Fault FileTree × FileTree :=
  if path.holdsNul then (.error .holdsNul, t)
  else if path.isLong then (.error .tooLong, t)
  else t.make path.names.reverse

def restrict (t : FileTree) (names : List Text) : FileTree :=
  match walk t [] names with
  | .ok place => t.put place (.directory 0o700)
  | .error _ => t

/-- Make directories one after another, each for its owner only, up to the first that cannot be
made. -/
def ensure (t : FileTree) : List Path → Except Fault Unit × FileTree
  | [] => (.ok (), t)
  | path :: paths =>
    match t.makeAll path with
    | (.ok made, _) => ensure (made.restrict path.names) paths
    | (.error fault, left) => (.error fault, left)

end FileTree

end ShardVault
