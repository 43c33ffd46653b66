import ShardVault.Proofs.Store.Laws

namespace ShardVault

namespace Table

theorem filter_insert {gone : Text → Bool} {key : Text} (hk : gone key = true) (value : Bytes)
    (t : Table) : (insert key value t).filter (fun p ↦ !gone p.1) = t.filter fun p ↦ !gone p.1 := by
  induction t with
  | nil => simp [insert, hk]
  | cons p t ih =>
    obtain ⟨other, old⟩ := p
    rw [insert]
    split
    · next h => simp [h, hk]
    split
    · rw [List.filter_cons, if_neg (by simp [hk])]
    · rw [List.filter_cons, List.filter_cons, ih]

end Table

namespace Entries

variable {α : Type} {gone : Text → Bool}

theorem filter_overwrite {key : Text} (hk : gone key = true) (entries : Entries α) (value : α) :
    (entries.map fun p ↦ if p.1 == key then (key, value) else p).filter (fun p ↦ !gone p.1) =
      entries.filter fun p ↦ !gone p.1 := by
  induction entries with
  | nil => rfl
  | cons p entries ih =>
    rw [List.map_cons, List.filter_cons, ih, List.filter_cons]
    by_cases hp : p.1 = key
    · simp [hp, hk]
    · simp [hp]

theorem filter_put {key : Text} (hk : gone key = true) (entries : Entries α) (value : α) :
    (entries.put key value).filter (fun p ↦ !gone p.1) = entries.filter fun p ↦ !gone p.1 := by
  unfold put
  split
  · exact filter_overwrite hk entries value
  · simp [hk]

end Entries

def Shelf.drop (gone : Text → Bool) : Shelf → Shelf
  | memory entries => memory (entries.filter fun p ↦ !gone p.1)
  | table rows => table (rows.filter fun p ↦ !gone p.1)

namespace Store

def drop (s : Store) (gone : Text → Bool) : Store :=
  { s with shelf := s.shelf.drop gone }

/-- A store can look a key up: only a table cannot, if the key has a surrogate. -/
def admits (s : Store) (key : Text) : Bool :=
  match s.shelf with
  | .memory _ => true
  | .table _ => key.isScalar

variable {s s' : Store} {gone other : Text → Bool} {key : Text} {value : Bytes}

theorem entries_drop (s : Store) (gone : Text → Bool) :
    (s.drop gone).entries = s.entries.filter fun p ↦ !gone p.1 := by
  obtain ⟨entries | rows, room⟩ := s <;> rfl

theorem peek_drop (s : Store) (gone : Text → Bool) (key : Text) :
    (s.drop gone).peek key = if gone key then none else s.peek key := by
  rw [peek, entries_drop, Entries.get?_filter, peek]

theorem mem_keys_drop : key ∈ (s.drop gone).keys ↔ gone key = false ∧ key ∈ s.keys := by
  rw [mem_keys_iff, mem_keys_iff, peek_drop]
  cases gone key <;> simp

theorem drop_congr (h : ∀ key ∈ s.keys, gone key = other key) : s.drop gone = s.drop other := by
  obtain ⟨entries | rows, room⟩ := s
  all_goals
    simp only [drop, Shelf.drop]
    congr 2
    refine List.filter_congr fun p hp ↦ ?_
    rw [h p.1 (List.mem_map_of_mem (f := (·.1)) hp)]

theorem drop_eq_self (h : ∀ key ∈ s.keys, gone key = false) : s.drop gone = s := by
  obtain ⟨entries | rows, room⟩ := s
  all_goals
    simp only [drop, Shelf.drop]
    congr 2
    refine List.filter_eq_self.2 fun p hp ↦ ?_
    rw [h p.1 (List.mem_map_of_mem (f := (·.1)) hp)]
    rfl

theorem Sound.drop (hs : s.Sound) (gone : Text → Bool) : (s.drop gone).Sound where
  distinct := by
    rw [keys, entries_drop]
    exact (List.filter_sublist.map _).nodup hs.distinct
  ordered := by
    obtain ⟨entries | rows, room⟩ := s
    · intro rows hr
      cases hr
    · rintro _ ⟨⟩
      exact (hs.ordered rows rfl).filter _
  scalar := fun key hk ↦ hs.scalar key (mem_keys_drop.1 hk).2

theorem drop_drop (s : Store) (gone other : Text → Bool) :
    (s.drop gone).drop other = s.drop fun key ↦ gone key || other key := by
  obtain ⟨entries | rows, room⟩ := s
  all_goals
    simp only [drop, Shelf.drop, List.filter_filter]
    congr 3
    funext p
    cases gone p.1 <;> simp

@[simp] theorem admits_drop (s : Store) (gone : Text → Bool) (key : Text) :
    (s.drop gone).admits key = s.admits key := by
  obtain ⟨entries | rows, room⟩ := s <;> rfl

theorem admits_of_isScalar (s : Store) (h : key.isScalar = true) : s.admits key = true := by
  obtain ⟨entries | rows, room⟩ := s
  · rfl
  · exact h

theorem get_eq (s : Store) (key : Text) :
    s.get key = if s.admits key then .ok (s.peek key) else .error .unencodable := by
  obtain ⟨entries | rows, room⟩ := s <;> rfl

theorem admits_of_get {found : Option Bytes} (h : s.get key = .ok found) :
    s.admits key = true ∧ s.peek key = found := by
  rw [get_eq] at h
  split at h
  · next known => exact ⟨known, Except.ok.inj h⟩
  · cases h

theorem delete_eq (s : Store) (key : Text) : s.delete key =
    if s.admits key then .ok ((s.peek key).isSome, s.drop (· == key)) else .error .unencodable := by
  obtain ⟨entries | rows, room⟩ := s
  · simp only [delete, Shelf.delete, admits, if_true, map_ok, ← Entries.isSome_get?]
    rfl
  · by_cases hk : key.isScalar = true
    · rw [admits, if_pos hk, delete, Shelf.delete, Table.delete, forKey_of_isScalar hk]
      simp only [map_ok, ← Entries.isSome_get?]
      rfl
    · rw [admits, if_neg hk, delete, Shelf.delete, Table.delete, Table.forKey, if_neg hk]
      rfl

theorem exists_put (shelf : Shelf) (h : key.isScalar = true) (value : Bytes) :
    ∃ shelf', shelf.put key value = .ok shelf' := by
  cases shelf with
  | memory entries => exact ⟨_, rfl⟩
  | table rows => exact ⟨_, by rw [Shelf.put, Table.put, forKey_of_isScalar h, map_ok]⟩

theorem put_of_shelf {shelf shelf' : Shelf} (h : shelf.put key value = .ok shelf') :
    (⟨shelf, none⟩ : Store).put key value = .ok ⟨shelf', none⟩ := by
  rw [put, if_neg (Option.some_ne_none 0).symm, h]
  rfl

theorem admits_of_put (h : s.put key value = .ok s') : s'.admits key = true := by
  obtain ⟨shelf, room⟩ := s
  rw [put] at h
  split at h
  · cases h
  obtain ⟨shelf', hs, rfl⟩ := map_eq_ok.1 h
  cases shelf with
  | memory entries =>
    obtain rfl := Except.ok.inj hs
    rfl
  | table rows =>
    obtain ⟨rows', hr, rfl⟩ := map_eq_ok.1 hs
    rw [Table.put, Table.forKey] at hr
    split at hr
    · assumption
    · cases hr

theorem shelf_drop_put (h : s.put key value = .ok s') (hk : gone key = true) :
    (s'.drop gone).shelf = (s.drop gone).shelf := by
  obtain ⟨-, -, ⟨entries, he, he'⟩ | ⟨rows, he, he'⟩⟩ := put_eq_ok h
  · simp only [drop, he, he', Shelf.drop, Entries.filter_put hk]
  · simp only [drop, he, he', Shelf.drop, Table.filter_insert hk]

theorem shelf_drop_own (h : s.put key value = .ok s') :
    (s'.drop (· == key)).shelf = (s.drop (· == key)).shelf :=
  shelf_drop_put h (beq_self_eq_true key)

end Store

end ShardVault
