import ShardVault.Proofs.Store.Drop

namespace ShardVault

theorem Entries.keys_put_congr {α : Type} {entries entries' : Entries α}
    (same : entries.keys = entries'.keys) (key : Text) (value other : α) :
    (entries.put key value).keys = (entries'.put key other).keys := by
  by_cases h : key ∈ entries.keys
  · rw [keys_put_of_mem h, keys_put_of_mem (same ▸ h), same]
  · rw [put_of_not_mem h, put_of_not_mem (same ▸ h)]
    simp only [keys, List.map_append, List.map_singleton] at same ⊢
    rw [same]

theorem Table.keys_insert_congr {t t' : Table} (same : Entries.keys t = Entries.keys t') (key : Text)
    (value other : Bytes) :
    Entries.keys (insert key value t) = Entries.keys (insert key other t') := by
  induction t generalizing t' with
  | nil =>
    obtain rfl : t' = [] := List.map_eq_nil_iff.1 same.symm
    rfl
  | cons p t ih =>
    obtain ⟨k, v⟩ := p
    obtain ⟨⟨k', v'⟩, rest, rfl, hk, hrest⟩ := List.map_eq_cons_iff.1 same.symm
    obtain rfl : k' = k := hk
    rw [insert, insert]
    split
    · exact congrArg (key :: ·) hrest.symm
    split
    · exact congrArg (key :: k' :: ·) hrest.symm
    · exact congrArg (k' :: ·) (ih hrest.symm)

def Shelf.isTable : Shelf → Bool
  | memory _ => false
  | table _ => true

namespace Store

/-- The two stores are of one kind and list the same keys in the same order. -/
structure SameOrder (s t : Store) : Prop where
  kind : s.shelf.isTable = t.shelf.isTable
  keys : s.keys = t.keys

variable {s s' t t' : Store} {key : Text} {value other : Bytes}

theorem SameOrder.put (h : s.SameOrder t) (hs : s.put key value = .ok s')
    (ht : t.put key other = .ok t') : s'.SameOrder t' := by
  obtain ⟨kind, same⟩ := h
  obtain ⟨-, -, ⟨a, hs, hs'⟩ | ⟨a, hs, hs'⟩⟩ := put_eq_ok hs
  · obtain ⟨-, -, ⟨b, ht, ht'⟩ | ⟨b, ht, -⟩⟩ := put_eq_ok ht
    · simp only [Store.keys, entries, hs, ht, Shelf.entries] at same
      refine ⟨by rw [hs', ht']; rfl, ?_⟩
      simp only [Store.keys, entries, hs', ht', Shelf.entries]
      exact Entries.keys_put_congr same key value other
    · rw [hs, ht] at kind
      cases kind
  · obtain ⟨-, -, ⟨b, ht, -⟩ | ⟨b, ht, ht'⟩⟩ := put_eq_ok ht
    · rw [hs, ht] at kind
      cases kind
    · simp only [Store.keys, entries, hs, ht, Shelf.entries] at same
      refine ⟨by rw [hs', ht']; rfl, ?_⟩
      simp only [Store.keys, entries, hs', ht', Shelf.entries]
      exact Table.keys_insert_congr same key value other

theorem keys_drop (s : Store) (gone : Text → Bool) : (s.drop gone).keys = s.keys.filter (!gone ·) := by
  rw [keys, entries_drop, Entries.keys, keys, Entries.keys, List.filter_map]
  rfl

theorem SameOrder.drop (h : s.SameOrder t) (gone : Text → Bool) :
    (s.drop gone).SameOrder (t.drop gone) := by
  refine ⟨?_, by rw [keys_drop, keys_drop, h.keys]⟩
  obtain ⟨a | a, _⟩ := s <;> obtain ⟨b | b, _⟩ := t <;> exact h.kind

end Store

end ShardVault
