import ShardVault.Store.Basic

namespace ShardVault

namespace Store

inductive Request
  | get (key : Text)
  | put (key : Text) (value : Bytes)
  | delete (key : Text)
  | keys

inductive Answer
  | found (value : Option Bytes)
  | written
  | deleted (there : Bool)
  | listed (keys : List Text)
  deriving DecidableEq

/-- The answer to a request and the store after it, unless the request fails. -/
def attend (s : Store) : Request → Except Failure (Answer × Store)
  | .get key => (s.get key).map fun value => (.found value, s)
  | .put key value => (s.put key value).map fun s => (.written, s)
  | .delete key => (s.delete key).map fun (there, s) => (.deleted there, s)
  | .keys => .ok (.listed s.keys, s)

def serve (s : Store) (request : Request) : Except Failure Answer × Store :=
  match s.attend request with
  | .ok (answer, s) => (.ok answer, s)
  | .error failure => (.error failure, s)

def serveAll (s : Store) : List Request → List (Except Failure Answer) × Store
  | [] => ([], s)
  | request :: requests =>
    let (answer, s) := s.serve request
    let (answers, s) := s.serveAll requests
    (answer :: answers, s)

end Store

namespace Database

def opened (db : Database) (name : Text) : Except Failure Database :=
  (tableName name).map db.withTable

/-- The answer to a request to the store that was opened under a name, and the database after it. -/
def serve (db : Database) (name : Text) (request : Store.Request) :
    Except Failure Store.Answer × Database :=
  let table := folded name
  if db.has table then
    let (answer, s) := (Store.table (db.rows table)).serve request
    (answer, db.put table s.entries)
  else (.error .database, db)

/-- The answers to requests one after another, each with the name of the store that was asked, and the
database after them. -/
def serveAll (db : Database) :
    List (Text × Store.Request) → List (Text × Except Failure Store.Answer) × Database
  | [] => ([], db)
  | (name, request) :: calls =>
    let (answer, db) := db.serve name request
    let (answers, db) := db.serveAll calls
    ((name, answer) :: answers, db)

end Database

end ShardVault
