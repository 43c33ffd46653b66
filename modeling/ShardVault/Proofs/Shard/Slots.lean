import Mathlib.Data.List.Perm.Subperm
import ShardVault.Proofs.Shard.Id
import ShardVault.Proofs.Shard.Layout

namespace ShardVault.Layout

variable {l : Layout} {fileId : Text} {verdicts : List Verdict} {slot : Nat}

theorem length_usedSlots_le (verdicts : List Verdict) :
    (usedSlots verdicts).length ≤ verdicts.length := by
  rw [usedSlots, List.length_map]
  exact List.length_filterMap_le _ _

theorem usedSlots_perm (h : verdicts.length ≤ (availableSlots verdicts).length) :
    (usedSlots verdicts).Perm (availableSlots verdicts) := by
  have among : (availableSlots verdicts).Subperm (usedSlots verdicts) :=
    List.subperm_of_subset (nodup_availableSlots _) fun _ hs ↦ mem_availableSlots.1 hs
  exact (among.perm_of_length_le (Nat.le_trans (length_usedSlots_le verdicts) h)).symm

theorem usable_of_length (h : verdicts.length ≤ (availableSlots verdicts).length) :
    ∀ verdict ∈ verdicts, verdict.usable?.isSome = true := by
  have used := (usedSlots_perm h).length_eq
  rw [usedSlots, List.length_map] at used
  exact List.filterMap_length_eq_length.1
    (Nat.le_antisymm (List.length_filterMap_le _ _) (by omega))

/-- Slots that are found for as many positions as there are slots: every position holds a shard
that can be used for its slot. -/
theorem exists_usable_of_length {shards : List (Option Shard)} (hl : shards.length = l.data)
    (h : l.data ≤ (availableSlots (shards.map (l.judge (some fileId)))).length) :
    ∀ shard? ∈ shards, ∃ shard, shard? = some shard ∧ l.Usable (some fileId) shard := by
  intro shard? hs
  have found := usable_of_length (by rwa [List.length_map, hl]) _ (List.mem_map_of_mem hs)
  cases shard? with
  | none => cases found
  | some shard =>
    rw [usable?_judge] at found
    split at found
    · next usable => exact ⟨shard, rfl, usable⟩
    · cases found

/-- Shards that fill as many slots as there are: each can be used for its slot, and no two of them
are for one slot. -/
theorem usable_and_perm_of_length {shards : List Shard} (hl : shards.length = l.data)
    (h : l.data ≤ (availableSlots ((shards.map some).map (l.judge (some fileId)))).length) :
    (∀ shard ∈ shards, l.Usable (some fileId) shard) ∧ (shards.map (·.index.toNat)).Perm
      (availableSlots ((shards.map some).map (l.judge (some fileId)))) := by
  have usable : ∀ shard ∈ shards, l.Usable (some fileId) shard := by
    intro shard hs
    obtain ⟨_, same, usable⟩ := exists_usable_of_length (by rwa [List.length_map]) h (some shard)
      (List.mem_map_of_mem hs)
    exact Option.some.inj same ▸ usable
  have used : (usedSlots ((shards.map some).map (l.judge (some fileId)))).Perm _ :=
    usedSlots_perm (by rwa [List.length_map, List.length_map, hl])
  rw [usedSlots_judge, usables_of_forall usable] at used
  exact ⟨usable, used⟩

theorem availableSlots_of_length {shards : List Shard} (hl : shards.length = l.data)
    (h : l.data ≤ (availableSlots ((shards.map some).map (l.judge (some fileId)))).length) :
    availableSlots ((shards.map some).map (l.judge (some fileId))) = List.range l.data := by
  obtain ⟨usable, used⟩ := usable_and_perm_of_length hl h
  have inside : ∀ slot ∈ availableSlots ((shards.map some).map (l.judge (some fileId))),
      slot ∈ List.range l.data := by
    intro slot hslot
    obtain ⟨shard, hs, rfl⟩ := List.mem_map.1 (used.mem_iff.2 hslot)
    have := (usable shard hs).nonneg
    have := (usable shard hs).inLayout
    exact List.mem_range.2 (by omega)
  have all : (availableSlots ((shards.map some).map (l.judge (some fileId)))).Perm
      (List.range l.data) :=
    (List.subperm_of_subset (nodup_availableSlots _) inside).perm_of_length_le
      (by rwa [List.length_range])
  exact availableSlots_eq List.pairwise_lt_range fun slot ↦
    mem_availableSlots.symm.trans all.mem_iff

/-- As many shards as there are slots fill all slots just if each can be used for its slot and they
have every index once. -/
theorem availableSlots_eq_range_iff {shards : List Shard} (hl : shards.length = l.data) :
    availableSlots ((shards.map some).map (l.judge (some fileId))) = List.range l.data ↔
      (∀ shard ∈ shards, l.Usable (some fileId) shard) ∧
      (shards.map (·.index)).Perm ((List.range l.data).map fun i : Nat ↦ (i : Int)) := by
  constructor
  · intro h
    obtain ⟨usable, used⟩ :=
      usable_and_perm_of_length hl (Nat.le_of_eq (by rw [h, List.length_range]))
    rw [h] at used
    refine ⟨usable, ?_⟩
    have same : shards.map (·.index) = (shards.map (·.index.toNat)).map fun i : Nat ↦ (i : Int) := by
      rw [List.map_map]
      exact List.map_congr_left fun shard hs ↦ (Int.toNat_of_nonneg (usable shard hs).nonneg).symm
    rw [same]
    exact used.map _
  · rintro ⟨usable, indices⟩
    have slots := indices.map Int.toNat
    rw [List.map_map, List.map_map] at slots
    refine availableSlots_eq List.pairwise_lt_range fun slot ↦ ?_
    rw [usedSlots_judge, usables_of_forall usable]
    exact slots.mem_iff.trans (by rw [show Int.toNat ∘ Nat.cast = id from rfl, List.map_id])

/-- Shards with their own hashes fill all slots just if none has the flag of parity and their ids
are those of the data shards of the file. -/
theorem availableSlots_eq_range_iff_ids {shards : List Shard} (hl : shards.length = l.data)
    (intact : ∀ shard ∈ shards, shard.verify = true) :
    availableSlots ((shards.map some).map (l.judge (some fileId))) = List.range l.data ↔
      (∀ shard ∈ shards, shard.isParity = false) ∧
      (shards.map (·.id)).Perm ((List.range l.data).map fun i : Nat ↦ shardId fileId i) := by
  have numbers : (List.range l.data).map (fun i : Nat ↦ shardId fileId i) =
      ((List.range l.data).map fun i : Nat ↦ (i : Int)).map (shardId fileId) := by
    rw [List.map_map]
    rfl
  have ids (own : ∀ shard ∈ shards, shard.fileId = fileId) :
      shards.map (·.id) = (shards.map (·.index)).map (shardId fileId) := by
    rw [List.map_map]
    exact List.map_congr_left fun shard hs ↦ congrArg (shardId · shard.index) (own shard hs)
  have injective : Function.Injective (shardId fileId) := fun i j h ↦ (shardId_inj.1 h).2
  rw [availableSlots_eq_range_iff hl, numbers]
  constructor
  · rintro ⟨usable, indices⟩
    refine ⟨fun shard hs ↦ (usable shard hs).isData, ?_⟩
    rw [ids fun shard hs ↦ (usable shard hs).own fileId rfl]
    exact indices.map _
  · rintro ⟨isData, perm⟩
    have usable : ∀ shard ∈ shards, l.Usable (some fileId) shard := by
      intro shard hs
      have hid : shard.id ∈ ((List.range l.data).map fun i : Nat ↦ (i : Int)).map (shardId fileId) :=
        perm.mem_iff.1 (List.mem_map_of_mem hs)
      obtain ⟨index, hindex, he⟩ := List.mem_map.1 hid
      obtain ⟨i, hi, rfl⟩ := List.mem_map.1 hindex
      obtain ⟨own, number⟩ := shardId_inj.1 he.symm
      have below := List.mem_range.1 hi
      exact ⟨⟨isData shard hs, by omega, by omega, fun _ same ↦ own.trans (Option.some.inj same)⟩,
        eq_of_beq (intact shard hs)⟩
    refine ⟨usable, (List.map_perm_map_iff injective).1 ?_⟩
    rwa [ids fun shard hs ↦ (usable shard hs).own fileId rfl] at perm

end ShardVault.Layout
