import ShardVault.Proofs.Entries
import ShardVault.Proofs.Result
import ShardVault.Store.Basic

namespace ShardVault

theorem Text.notAfter_total (s t : Text) : s.notAfter t = true ∨ t.notAfter s = true := by
  induction s generalizing t with
  | nil => exact .inl rfl
  | cons a s ih =>
    cases t with
    | nil => exact .inr rfl
    | cons b t =>
      simp only [notAfter, Bool.or_eq_true, Bool.and_eq_true, decide_eq_true_eq, beq_iff_eq]
      rcases Nat.lt_trichotomy a.val b.val with h | h | h
      · exact .inl (.inl h)
      · exact (ih t).imp (fun hst ↦ .inr ⟨h, hst⟩) fun hts ↦ .inr ⟨h.symm, hts⟩
      · exact .inr (.inl h)

theorem Text.notAfter_trans {s t u : Text} (hst : s.notAfter t = true)
    (htu : t.notAfter u = true) : s.notAfter u = true := by
  induction s generalizing t u with
  | nil => rfl
  | cons a s ih =>
    cases t with
    | nil => cases hst
    | cons b t =>
      cases u with
      | nil => cases htu
      | cons c u =>
        simp only [notAfter, Bool.or_eq_true, Bool.and_eq_true, decide_eq_true_eq,
          beq_iff_eq] at hst htu ⊢
        rcases hst with hab | ⟨hab, hst⟩
        · exact .inl (by omega)
        · rcases htu with hbc | ⟨hbc, htu⟩
          · exact .inl (by omega)
          · exact .inr ⟨by omega, ih hst htu⟩

theorem Text.notAfter_antisymm {s t : Text} (hst : s.notAfter t = true)
    (hts : t.notAfter s = true) : s = t := by
  induction s generalizing t with
  | nil =>
    cases t with
    | nil => rfl
    | cons b t => cases hts
  | cons a s ih =>
    cases t with
    | nil => cases hst
    | cons b t =>
      simp only [notAfter, Bool.or_eq_true, Bool.and_eq_true, decide_eq_true_eq,
        beq_iff_eq] at hst hts
      rcases hst with hab | ⟨hab, hst⟩ <;> rcases hts with hba | ⟨hba, hts⟩
      · omega
      · omega
      · omega
      · rw [Fin.ext hab, ih hst hts]

namespace Table

def Ordered (t : Table) : Prop :=
  t.Pairwise fun p q ↦ p.1.notAfter q.1 = true ∧ p.1 ≠ q.1

theorem get?_insert (key : Text) (value : Bytes) (t : Table) (k : Text) :
    Entries.get? (insert key value t) k = if k = key then some value else Entries.get? t k := by
  induction t with
  | nil => rw [insert, Entries.get?_cons]
  | cons p t ih =>
    obtain ⟨other, old⟩ := p
    rw [insert]
    split
    · next h =>
      subst h
      rw [Entries.get?_cons, Entries.get?_cons]
      by_cases hk : k = other
      · simp [hk]
      · simp [hk]
    split
    · rw [Entries.get?_cons]
    · next h _ =>
      rw [Entries.get?_cons, ih, Entries.get?_cons]
      by_cases hk : k = other
      · simp [hk, h]
      · simp [hk]

theorem mem_keys_insert {key : Text} {value : Bytes} {t : Table} {k : Text} :
    k ∈ Entries.keys (insert key value t) ↔ k = key ∨ k ∈ Entries.keys t := by
  rw [Entries.mem_keys_iff, get?_insert, Entries.mem_keys_iff]
  by_cases hk : k = key
  · simp [hk]
  · simp [hk]

theorem Ordered.insert {t : Table} (h : t.Ordered) (key : Text) (value : Bytes) :
    (Table.insert key value t).Ordered := by
  induction t with
  | nil => exact List.pairwise_singleton _ _
  | cons p t ih =>
    obtain ⟨other, old⟩ := p
    obtain ⟨first, rest⟩ := List.pairwise_cons.1 h
    rw [Table.insert]
    split
    · next he =>
      subst he
      exact List.pairwise_cons.2 ⟨first, rest⟩
    · next hne =>
      split
      · next hle =>
        refine List.pairwise_cons.2 ⟨List.forall_mem_cons.2 ⟨⟨hle, Ne.symm hne⟩, ?_⟩, h⟩
        intro q hq
        obtain ⟨hoq, hneq⟩ := first q hq
        refine ⟨Text.notAfter_trans hle hoq, ?_⟩
        rintro rfl
        exact hneq (Text.notAfter_antisymm hoq hle)
      · next hgt =>
        refine List.pairwise_cons.2 ⟨?_, ih rest⟩
        intro q hq
        have hmem := mem_keys_insert.1 (List.mem_map_of_mem (f := (·.1)) hq)
        rcases hmem with rfl | hmem
        · exact ⟨(Text.notAfter_total _ _).resolve_right hgt, hne⟩
        · obtain ⟨q', hq', he⟩ := List.mem_map.1 hmem
          exact he ▸ first q' hq'

theorem Ordered.nodup_keys {t : Table} (h : t.Ordered) : (Entries.keys t).Nodup :=
  List.pairwise_map.2 (h.imp And.right)

end Table

namespace Store

variable {s s' : Store} {key k : Text} {value : Bytes}

/-- A store with distinct keys without surrogates, in order if it is a table. -/
structure Sound (s : Store) : Prop where
  distinct : s.keys.Nodup
  ordered : ∀ rows, s.shelf = .table rows → rows.Ordered
  scalar : ∀ key ∈ s.keys, key.isScalar = true

theorem Sound.of_entries_eq_nil (h : s.entries = []) : s.Sound where
  distinct := by
    rw [keys, h]
    exact List.nodup_nil
  ordered := by
    intro rows hr
    rw [Store.entries, hr] at h
    obtain rfl : rows = [] := h
    exact List.Pairwise.nil
  scalar := by
    intro key hk
    rw [keys, h] at hk
    cases hk

theorem mem_keys_iff : key ∈ s.keys ↔ ∃ value, s.peek key = some value :=
  Entries.mem_keys_iff

theorem forKey_eq_ok {α : Type} {a b : α} (h : Table.forKey key a = .ok b) : a = b := by
  unfold Table.forKey at h
  split at h
  · exact Except.ok.inj h
  · cases h

theorem forKey_of_isScalar {α : Type} (h : key.isScalar = true) (a : α) :
    Table.forKey key a = .ok a := if_pos h

theorem get_of_isScalar (h : key.isScalar = true) : s.get key = .ok (s.peek key) := by
  obtain ⟨entries | rows, room⟩ := s
  · rfl
  · exact forKey_of_isScalar h _

theorem peek_of_get {found : Option Bytes} (h : s.get key = .ok found) : s.peek key = found := by
  obtain ⟨entries | rows, room⟩ := s
  · exact Except.ok.inj h
  · exact forKey_eq_ok h

theorem put_eq_ok (h : s.put key value = .ok s') :
    s.room ≠ some 0 ∧ s'.room = s.room.map (· - 1) ∧
      ((∃ entries, s.shelf = .memory entries ∧ s'.shelf = .memory (entries.put key value)) ∨
        ∃ rows, s.shelf = .table rows ∧ s'.shelf = .table (rows.insert key value)) := by
  obtain ⟨shelf, room⟩ := s
  simp only [put] at h
  split at h
  · cases h
  next hroom =>
  obtain ⟨shelf', hs, rfl⟩ := map_eq_ok.1 h
  refine ⟨hroom, rfl, ?_⟩
  cases shelf with
  | memory entries => exact .inl ⟨entries, rfl, (Except.ok.inj hs).symm⟩
  | table rows =>
    obtain ⟨rows', hr, rfl⟩ := map_eq_ok.1 hs
    exact .inr ⟨rows, rfl, by rw [forKey_eq_ok hr]⟩

theorem peek_put (h : s.put key value = .ok s') (k : Text) :
    s'.peek k = if k = key then some value else s.peek k := by
  obtain ⟨-, -, ⟨entries, hs, hs'⟩ | ⟨rows, hs, hs'⟩⟩ := put_eq_ok h
  · simp only [peek, Store.entries, hs, hs', Shelf.entries]
    exact Entries.get?_put entries key value k
  · simp only [peek, Store.entries, hs, hs', Shelf.entries]
    exact Table.get?_insert key value rows k

theorem mem_keys_put (h : s.put key value = .ok s') : k ∈ s'.keys ↔ k = key ∨ k ∈ s.keys := by
  rw [mem_keys_iff, peek_put h, mem_keys_iff]
  by_cases hk : k = key
  · simp [hk]
  · simp [hk]

theorem Sound.put (hs : s.Sound) (hk : key.isScalar = true) (h : s.put key value = .ok s') :
    s'.Sound := by
  have scalar : ∀ k ∈ s'.keys, k.isScalar = true := by
    intro k hm
    rcases (mem_keys_put h).1 hm with rfl | hm
    · exact hk
    · exact hs.scalar k hm
  obtain ⟨-, -, ⟨entries, he, he'⟩ | ⟨rows, he, he'⟩⟩ := put_eq_ok h
  · have distinct := hs.distinct
    simp only [keys, Store.entries, he, Shelf.entries] at distinct
    refine ⟨?_, ?_, scalar⟩
    · simp only [keys, Store.entries, he', Shelf.entries]
      exact Entries.nodup_keys_put distinct key value
    · intro rows hr
      rw [he'] at hr
      cases hr
  · have ordered := (hs.ordered rows he).insert key value
    refine ⟨?_, ?_, scalar⟩
    · simp only [keys, Store.entries, he', Shelf.entries]
      exact ordered.nodup_keys
    · intro rows' hr
      rw [he'] at hr
      obtain rfl := Shelf.table.inj hr
      exact ordered

theorem put_of_isScalar (hr : s.room ≠ some 0) (hk : key.isScalar = true) (value : Bytes) :
    ∃ s', s.put key value = .ok s' ∧ s'.room = s.room.map (· - 1) := by
  obtain ⟨entries | rows, room⟩ := s
  · exact ⟨_, if_neg hr, rfl⟩
  · refine ⟨⟨.table (rows.insert key value), room.map (· - 1)⟩, ?_, rfl⟩
    rw [Store.put, if_neg hr]
    simp only [Shelf.put, Table.put, forKey_of_isScalar hk]
    rfl

theorem put_of_room (hr : s.room = none) (hk : key.isScalar = true) (value : Bytes) :
    ∃ s', s.put key value = .ok s' ∧ s'.room = none := by
  obtain ⟨s', hput, hroom⟩ := put_of_isScalar (by rw [hr]; exact nofun) hk value
  exact ⟨s', hput, by rw [hroom, hr]; rfl⟩

theorem put_of_full (hr : s.room = some 0) (key : Text) (value : Bytes) :
    s.put key value = .error .storeFull :=
  if_pos hr

end Store

end ShardVault
