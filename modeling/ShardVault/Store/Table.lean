import ShardVault.Bytes.Basic
import ShardVault.Entries
import ShardVault.Failure

namespace ShardVault

abbrev Table := Entries Bytes

namespace Table

def insert (key : Text) (value : Bytes) : Table → Table
  | [] => [(key, value)]
  | (k, v) :: rows =>
    if k = key then (key, value) :: rows
    else if key.notAfter k then (key, value) :: (k, v) :: rows
    else (k, v) :: insert key value rows

def forKey {α : Type} (key : Text) (result : α) : Except Failure α :=
  if key.isScalar then .ok result else .error .unencodable

def get (t : Table) (key : Text) : Except Failure (Option Bytes) :=
  forKey key (t.get? key)

def put (t : Table) (key : Text) (value : Bytes) : Except Failure Table :=
  forKey key (t.insert key value)

def delete (t : Table) (key : Text) : Except Failure (Bool × Table) :=
  forKey key (t.has key, t.erase key)

end Table

abbrev Database := Entries Table

namespace Database

def reservedWords : List Text :=
  (["add", "all", "alter", "and", "as", "autoincrement", "between", "case", "check", "collate",
  "commit", "constraint", "create", "default", "deferrable", "delete", "distinct", "drop", "else",
  "escape", "except", "exists", "foreign", "from", "group", "having", "if", "in", "index", "insert",
  "intersect", "into", "is", "isnull", "join", "limit", "not", "nothing", "notnull", "null", "on",
  "or", "order", "primary", "references", "returning", "select", "set", "table", "then", "to",
  "transaction", "union", "unique", "update", "using", "values", "when", "where"] : List String).map
    Text.ofString

def startsName (c : CodePoint) : Bool :=
  c.isAsciiLetter || c = CodePoint.ofChar '_'

def bareName (name : Text) : Text :=
  if name.getLast? = some (CodePoint.ofChar '\n') then name.dropLast else name

def isName : Text → Bool
  | [] => false
  | c :: rest =>
    startsName c && rest.length ≤ 62 && rest.all fun c => startsName c || c.isAsciiDigit

def folded (name : Text) : Text :=
  (bareName name).map fun c =>
    if c.within 'A' 'Z' then CodePoint.ofNat (c.val + 32) else c

def tableName (name : Text) : Except Failure Text :=
  if !isName (bareName name) then .error (.invalid (.tableName name))
  else if reservedWords.contains (folded name) || ("sqlite_" : Text).isPrefixOf (folded name) then
    .error .database
  else .ok (folded name)

def withTable (db : Database) (name : Text) : Database :=
  if db.has name then db else db.put name []

def rows (db : Database) (name : Text) : Table :=
  (db.get? name).getD []

end Database

end ShardVault
