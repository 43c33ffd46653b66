import ShardVault.Entries

namespace ShardVault

/-- A lock and the count of its users, for every key in use; `next` numbers the next lock. -/
structure KeyedLocks where
  next : Nat
  held : Entries (Nat × Nat)

namespace KeyedLocks

def empty : KeyedLocks := ⟨0, []⟩

def enter (l : KeyedLocks) (key : Text) : Nat × KeyedLocks :=
  match l.held.get? key with
  | some (lock, users) => (lock, { l with held := l.held.put key (lock, users + 1) })
  | none => (l.next, ⟨l.next + 1, l.held.put key (l.next, 1)⟩)

def leave (l : KeyedLocks) (key : Text) : KeyedLocks :=
  match l.held.get? key with
  | some (lock, users) =>
    if users = 1 then { l with held := l.held.erase key }
    else { l with held := l.held.put key (lock, users - 1) }
  | none => l

def size (l : KeyedLocks) : Nat :=
  l.held.length

end KeyedLocks

end ShardVault
