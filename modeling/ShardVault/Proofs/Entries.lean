import Mathlib.Data.List.Basic
import ShardVault.Entries

namespace ShardVault

theorem lookup_eq_some_iff {κ α : Type} [BEq κ] [LawfulBEq κ] {entries : List (κ × α)}
    (hd : (entries.map (·.1)).Nodup) {key : κ} {value : α} :
    entries.lookup key = some value ↔ (key, value) ∈ entries := by
  induction entries with
  | nil => simp
  | cons p entries ih =>
    obtain ⟨k, v⟩ := p
    rw [List.map_cons, List.nodup_cons] at hd
    have ih := ih hd.2
    rw [List.lookup_cons]
    by_cases hk : key = k
    · subst hk
      have hne : (key, value) ∉ entries := fun h ↦ hd.1 (List.mem_map_of_mem (f := (·.1)) h)
      simp [hne, eq_comm]
    · simp [hk, ih, beq_eq_false_iff_ne.2 hk]

namespace Entries

variable {α β : Type} {entries : Entries α} {key k : Text} {value : α}

theorem get?_cons (p : Text × α) (entries : Entries α) (key : Text) :
    get? (p :: entries) key = if key = p.1 then some p.2 else get? entries key := by
  obtain ⟨other, value⟩ := p
  simp only [get?, List.lookup_cons]
  by_cases h : key = other
  · simp [h]
  · simp [h, beq_eq_false_iff_ne.2 h]

theorem has_cons (p : Text × α) (entries : Entries α) (key : Text) :
    has (p :: entries) key = (p.1 == key || has entries key) := rfl

theorem isSome_get? (entries : Entries α) (key : Text) :
    (entries.get? key).isSome = entries.has key := by
  induction entries with
  | nil => rfl
  | cons p entries ih =>
    rw [get?_cons, has_cons, ← ih]
    by_cases h : key = p.1
    · simp [h]
    · simp [h, Ne.symm h]

theorem has_iff : entries.has key = true ↔ key ∈ entries.keys := by
  simp [has, keys]

theorem mem_keys_iff : key ∈ entries.keys ↔ ∃ value, entries.get? key = some value := by
  rw [← has_iff, ← isSome_get?, Option.isSome_iff_exists]

theorem get?_eq_none_iff : entries.get? key = none ↔ key ∉ entries.keys := by
  rw [← has_iff, ← isSome_get?]
  cases entries.get? key <;> simp

theorem put_of_not_mem (h : key ∉ entries.keys) (value : α) :
    entries.put key value = entries ++ [(key, value)] := by
  have hf : entries.has key = false := by simpa [← has_iff] using h
  simp [put, hf]

theorem keys_put_of_mem (h : key ∈ entries.keys) (value : α) :
    (entries.put key value).keys = entries.keys := by
  rw [put, if_pos (has_iff.2 h), keys, List.map_map]
  apply List.map_congr_left
  intro p _
  by_cases hp : p.1 = key
  · simp [hp]
  · simp [hp]

theorem get?_overwrite (entries : Entries α) (key : Text) (value : α) (k : Text) :
    get? (entries.map fun p ↦ if p.1 == key then (key, value) else p) k =
      if k = key then (entries.get? k).map fun _ ↦ value else entries.get? k := by
  induction entries with
  | nil => simp [get?]
  | cons p entries ih =>
    rw [List.map_cons, get?_cons, get?_cons, ih]
    by_cases hp : p.1 = key
    · by_cases hk : k = key
      · simp [hp, hk]
      · simp [hp, hk]
    · by_cases hk : k = p.1
      · simp [hp, hk]
      · simp [hp, hk]

theorem get?_put (entries : Entries α) (key : Text) (value : α) (k : Text) :
    (entries.put key value).get? k = if k = key then some value else entries.get? k := by
  by_cases hm : key ∈ entries.keys
  · rw [put, if_pos (has_iff.2 hm), get?_overwrite]
    by_cases hk : k = key
    · obtain ⟨old, ho⟩ := mem_keys_iff.1 hm
      simp [hk, ho]
    · simp [hk]
  · rw [put_of_not_mem hm]
    simp only [get?, List.lookup_append]
    by_cases hk : k = key
    · have := get?_eq_none_iff.2 hm
      rw [get?] at this
      simp [hk, this]
    · simp [hk, List.lookup_cons, beq_eq_false_iff_ne.2 hk]

theorem get?_filter (gone : Text → Bool) (entries : Entries α) (key : Text) :
    get? (entries.filter fun p ↦ !gone p.1) key = if gone key then none else entries.get? key := by
  induction entries with
  | nil => simp [get?]
  | cons p entries ih =>
    rw [List.filter_cons, get?_cons]
    split
    · next kept =>
      rw [get?_cons, ih]
      by_cases hk : key = p.1
      · simp [hk, by simpa using kept]
      · simp [hk]
    · next dropped =>
      rw [ih]
      by_cases hk : key = p.1
      · simp [hk, by simpa using dropped]
      · simp [hk]

theorem get?_erase (entries : Entries α) (key k : Text) :
    (entries.erase key).get? k = if k = key then none else entries.get? k :=
  (get?_filter (· == key) entries k).trans (by simp only [beq_iff_eq])

theorem mem_keys_put : k ∈ (entries.put key value).keys ↔ k = key ∨ k ∈ entries.keys := by
  rw [mem_keys_iff, mem_keys_iff, get?_put]
  split
  · next same => simp [same]
  · next ne => simp [ne]

theorem mem_keys_erase : k ∈ (entries.erase key).keys ↔ k ≠ key ∧ k ∈ entries.keys := by
  rw [mem_keys_iff, mem_keys_iff, get?_erase]
  split
  · next same => simp [same]
  · next ne => simp [ne]

theorem nodup_keys_put (hd : entries.keys.Nodup) (key : Text) (value : α) :
    (entries.put key value).keys.Nodup := by
  by_cases hm : key ∈ entries.keys
  · rwa [keys_put_of_mem hm]
  · rw [put_of_not_mem hm, keys, List.map_append, List.nodup_append]
    refine ⟨hd, by simp, ?_⟩
    intro a ha b hb
    rw [List.map_singleton, List.mem_singleton] at hb
    rintro rfl
    subst hb
    exact hm ha

theorem nodup_keys_erase (hd : entries.keys.Nodup) (key : Text) :
    (entries.erase key).keys.Nodup :=
  (List.filter_sublist.map _).nodup hd

theorem erase_of_not_mem (h : key ∉ entries.keys) : entries.erase key = entries := by
  refine List.filter_eq_self.2 fun p hp ↦ bne_iff_ne.2 ?_
  rintro rfl
  exact h (List.mem_map_of_mem (f := (·.1)) hp)

theorem perm_filterMap_get? {keys : List Text} (hk : keys.Perm entries.keys)
    (hd : entries.keys.Nodup) (f : Text → α → β) :
    (keys.filterMap fun key ↦ (entries.get? key).map (f key)).Perm
      (entries.map fun p ↦ f p.1 p.2) := by
  refine (hk.filterMap _).trans (.of_eq ?_)
  rw [Entries.keys, List.filterMap_map, ← List.filterMap_eq_map]
  apply List.filterMap_congr
  intro p hp
  have found : entries.get? p.1 = some p.2 := (lookup_eq_some_iff hd).2 hp
  simp only [Function.comp_apply, found, Option.map_some]

theorem get?_perm {entries' : Entries α} (h : entries.Perm entries') (hd : entries.keys.Nodup)
    (key : Text) : entries.get? key = entries'.get? key := by
  have hd' : entries'.keys.Nodup := (h.map _).nodup_iff.1 hd
  apply Option.ext
  intro value
  rw [get?, get?, lookup_eq_some_iff hd, lookup_eq_some_iff hd', h.mem_iff]

theorem get?_map (f : α → β) (entries : Entries α) (key : Text) :
    get? (entries.map fun p ↦ (p.1, f p.2)) key = (entries.get? key).map f := by
  induction entries with
  | nil => rfl
  | cons p entries ih =>
    rw [List.map_cons, get?_cons, get?_cons, ih]
    by_cases hk : key = p.1
    · simp [hk]
    · simp [hk]

end Entries

end ShardVault
