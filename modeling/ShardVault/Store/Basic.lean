import ShardVault.Store.Table

namespace ShardVault

inductive Shelf
  | memory (entries : Entries Bytes)
  | table (rows : Table)

namespace Shelf

def entries : Shelf → Entries Bytes
  | memory entries => entries
  | table rows => rows

def get : Shelf → Text → Except Failure (Option Bytes)
  | memory entries, key => .ok (entries.get? key)
  | table rows, key => rows.get key

def put : Shelf → Text → Bytes → Except Failure Shelf
  | memory entries, key, value => .ok (memory (entries.put key value))
  | table rows, key, value => (rows.put key value).map table

def delete : Shelf → Text → Except Failure (Bool × Shelf)
  | memory entries, key => .ok (entries.has key, memory (entries.erase key))
  | table rows, key => (rows.delete key).map fun (there, rows) => (there, table rows)

end Shelf

/-- Bytes under keys, and how many writes there is room for if they are limited. -/
structure Store where
  shelf : Shelf
  room : Option Nat

namespace Store

def memory (entries : Entries Bytes) (room : Option Nat) : Store :=
  ⟨.memory entries, room⟩

def table (rows : Table) : Store :=
  ⟨.table rows, none⟩

def empty : Store := memory [] none

def entries (s : Store) : Entries Bytes :=
  s.shelf.entries

def keys (s : Store) : List Text :=
  s.entries.keys

def get (s : Store) (key : Text) : Except Failure (Option Bytes) :=
  s.shelf.get key

def put (s : Store) (key : Text) (value : Bytes) : Except Failure Store :=
  if s.room = some 0 then .error .storeFull
  else (s.shelf.put key value).map fun shelf => ⟨shelf, s.room.map (· - 1)⟩

def delete (s : Store) (key : Text) : Except Failure (Bool × Store) :=
  (s.shelf.delete key).map fun (there, shelf) => (there, { s with shelf })

def peek (s : Store) (key : Text) : Option Bytes :=
  s.entries.get? key

end Store

end ShardVault
