import ShardVault.Text.Basic

namespace ShardVault

abbrev Entries (α : Type) := List (Text × α)

namespace Entries

variable {α : Type}

def keys (entries : Entries α) : List Text :=
  entries.map (·.1)

def get? (entries : Entries α) (key : Text) : Option α :=
  entries.lookup key

def has (entries : Entries α) (key : Text) : Bool :=
  entries.any (·.1 == key)

def put (entries : Entries α) (key : Text) (value : α) : Entries α :=
  if entries.has key then entries.map fun p => if p.1 == key then (key, value) else p
  else entries ++ [(key, value)]

def erase (entries : Entries α) (key : Text) : Entries α :=
  entries.filter fun p => p.1 != key

def ofList (pairs : List (Text × α)) : Entries α :=
  pairs.foldl (fun entries p => entries.put p.1 p.2) []

end Entries

end ShardVault
