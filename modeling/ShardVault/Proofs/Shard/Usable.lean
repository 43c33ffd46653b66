import Mathlib.Data.List.Nodup
import Mathlib.Data.List.ReduceOption
import ShardVault.Shard.Layout

namespace ShardVault

theorem lookup_reverse {α β : Type} [BEq α] [LawfulBEq α] (entries : List (α × β)) (key : α) :
    entries.reverse.lookup key =
      (entries.filter fun entry ↦ entry.1 == key).getLast?.map (·.2) := by
  rw [List.getLast?_filter]
  induction entries.reverse with
  | nil => rfl
  | cons entry entries ih =>
    obtain ⟨name, value⟩ := entry
    rw [List.lookup_cons, List.find?_cons, ih, BEq.comm]
    cases name == key <;> rfl

namespace Layout

section Slots

variable {α : Type} [BEq α] [LawfulBEq α]

theorem mem_foldr_insert {xs : List α} {x : α} : x ∈ xs.foldr List.insert [] ↔ x ∈ xs := by
  induction xs with
  | nil => exact Iff.rfl
  | cons y ys ih => rw [List.foldr_cons, List.mem_insert_iff, ih, List.mem_cons]

theorem nodup_foldr_insert (xs : List α) : (xs.foldr List.insert []).Nodup := by
  induction xs with
  | nil => exact List.nodup_nil
  | cons y ys ih => exact List.Nodup.insert ih

def usedSlots (verdicts : List Verdict) : List Nat :=
  (verdicts.filterMap Verdict.usable?).map (·.1)

variable {verdicts : List Verdict}

theorem availableSlots_perm (verdicts : List Verdict) :
    (availableSlots verdicts).Perm ((usedSlots verdicts).foldr List.insert []) :=
  List.mergeSort_perm _ _

theorem nodup_availableSlots (verdicts : List Verdict) : (availableSlots verdicts).Nodup :=
  (availableSlots_perm verdicts).nodup_iff.2 (nodup_foldr_insert _)

theorem mem_availableSlots {slot : Nat} :
    slot ∈ availableSlots verdicts ↔ slot ∈ usedSlots verdicts :=
  (availableSlots_perm verdicts).mem_iff.trans mem_foldr_insert

theorem pairwise_availableSlots (verdicts : List Verdict) :
    (availableSlots verdicts).Pairwise fun a b ↦ Nat.ble a b = true := by
  refine List.pairwise_mergeSort ?_ ?_ _
  · intro a b c hab hbc
    exact Nat.ble_eq_true_of_le
      (Nat.le_trans (Nat.le_of_ble_eq_true hab) (Nat.le_of_ble_eq_true hbc))
  · intro a b
    rw [Bool.or_eq_true]
    exact (Nat.le_total a b).imp Nat.ble_eq_true_of_le Nat.ble_eq_true_of_le

theorem availableSlots_eq {slots : List Nat} (rising : slots.Pairwise (· < ·))
    (same : ∀ slot, slot ∈ usedSlots verdicts ↔ slot ∈ slots) :
    availableSlots verdicts = slots := by
  have antisymm : ∀ a b : Nat, Nat.ble a b = true → Nat.ble b a = true → a = b :=
    fun a b hab hba ↦ Nat.le_antisymm (Nat.le_of_ble_eq_true hab) (Nat.le_of_ble_eq_true hba)
  have sorted : slots.Pairwise fun a b ↦ Nat.ble a b = true :=
    rising.imp fun h ↦ Nat.ble_eq_true_of_le (Nat.le_of_lt h)
  have distinct : slots.Nodup := rising.imp Nat.ne_of_lt
  have perm : (availableSlots verdicts).Perm slots :=
    (List.perm_ext_iff_of_nodup (nodup_availableSlots _) distinct).2 fun slot ↦
      mem_availableSlots.trans (same slot)
  exact perm.eq_of_pairwise (fun a b _ _ ↦ antisymm a b) (pairwise_availableSlots verdicts) sorted

end Slots

/-- A shard for a data slot, and of a file if a file is given. -/
structure Placed (l : Layout) (owner : Option Text) (shard : Shard) : Prop where
  isData : shard.isParity = false
  nonneg : 0 ≤ shard.index
  inLayout : shard.index < l.data
  own : ∀ fileId ∈ owner, shard.fileId = fileId

structure Usable (l : Layout) (owner : Option Text) (shard : Shard) : Prop
    extends l.Placed owner shard where
  intact : Sha256.hex shard.data = shard.hash

instance (l : Layout) (owner : Option Text) : DecidablePred (l.Placed owner) := fun shard ↦
  decidable_of_iff (shard.isParity = false ∧ 0 ≤ shard.index ∧ shard.index < l.data ∧
    ∀ fileId ∈ owner, shard.fileId = fileId)
    ⟨fun ⟨isData, nonneg, inLayout, own⟩ ↦ ⟨isData, nonneg, inLayout, own⟩,
      fun ⟨isData, nonneg, inLayout, own⟩ ↦ ⟨isData, nonneg, inLayout, own⟩⟩

instance (l : Layout) (owner : Option Text) : DecidablePred (l.Usable owner) := fun shard ↦
  decidable_of_iff (l.Placed owner shard ∧ Sha256.hex shard.data = shard.hash)
    ⟨fun ⟨placed, intact⟩ ↦ ⟨placed, intact⟩, fun usable ↦ ⟨usable.toPlaced, usable.intact⟩⟩

def usables (l : Layout) (owner : Option Text) (shards : List (Option Shard)) : List Shard :=
  shards.reduceOption.filter (l.Usable owner ·)

def lastFor? (found : List Shard) (slot : Nat) : Option Shard :=
  (found.filter fun shard ↦ shard.index = (slot : Int)).getLast?

def filledSlots (l : Layout) (found : List Shard) : List Nat :=
  (List.range l.data).filter fun slot ↦ (lastFor? found slot).isSome

variable {l : Layout} {owner : Option Text} {shard : Shard} {shards : List (Option Shard)}
  {found : List Shard} {slot : Nat}

theorem placed_iff : l.Placed owner shard ↔
    ¬ (shard.isParity = true ∨ shard.index < 0 ∨ (l.data : Int) ≤ shard.index) ∧
      ¬ owner.any (· != shard.fileId) = true := by
  have foreign : owner.any (· != shard.fileId) = true ↔ ∃ fileId ∈ owner, shard.fileId ≠ fileId := by
    cases owner with
    | none => exact iff_of_false nofun nofun
    | some fileId =>
      simp only [Option.any_some, bne_iff_ne, Option.mem_some_iff, exists_eq_left']
      exact ne_comm
  rw [foreign, not_or, not_or, Bool.not_eq_true, Int.not_lt, Int.not_le]
  constructor
  · rintro ⟨isData, nonneg, inLayout, own⟩
    exact ⟨⟨isData, nonneg, inLayout⟩, fun ⟨fileId, h, other⟩ ↦ other (own fileId h)⟩
  · rintro ⟨⟨isData, nonneg, inLayout⟩, own⟩
    exact ⟨isData, nonneg, inLayout, fun fileId h ↦ of_not_not fun other ↦ own ⟨fileId, h, other⟩⟩

theorem judge_of_placed (h : l.Placed owner shard) : l.judge owner (some shard) =
    if shard.verify then .usable shard.index.toNat shard else .damaged shard.index.toNat := by
  obtain ⟨place, own⟩ := placed_iff.1 h
  rw [judge, if_neg place, if_neg own]

theorem usable?_judge_of_not_placed (h : ¬ l.Placed owner shard) :
    (l.judge owner (some shard)).usable? = none := by
  simp only [judge]
  split
  · rfl
  next place =>
  split
  · rfl
  · next own => exact absurd (placed_iff.2 ⟨place, own⟩) h

theorem usable?_judge (l : Layout) (owner : Option Text) (shard : Shard) :
    (l.judge owner (some shard)).usable? =
      if l.Usable owner shard then some (shard.index.toNat, shard) else none := by
  by_cases placed : l.Placed owner shard
  · rw [judge_of_placed placed, Shard.verify]
    by_cases intact : Sha256.hex shard.data = shard.hash
    · rw [if_pos (beq_iff_eq.2 intact), if_pos ⟨placed, intact⟩]
      rfl
    · rw [if_neg (mt beq_iff_eq.1 intact), if_neg fun usable ↦ intact usable.intact]
      rfl
  · rw [usable?_judge_of_not_placed placed, if_neg fun usable ↦ placed usable.toPlaced]

theorem filterMap_judge (l : Layout) (owner : Option Text) (shards : List (Option Shard)) :
    (shards.map (l.judge owner)).filterMap Verdict.usable? =
      (l.usables owner shards).map fun shard ↦ (shard.index.toNat, shard) := by
  induction shards with
  | nil => rfl
  | cons shard? shards ih =>
    cases shard? with
    | none => exact ih
    | some shard =>
      rw [usables] at ih
      rw [List.map_cons, usables, List.reduceOption_cons_of_some, List.filter_cons]
      by_cases usable : l.Usable owner shard
      · rw [List.filterMap_cons_some ((usable?_judge l owner shard).trans (if_pos usable)), ih,
          if_pos (decide_eq_true usable), List.map_cons]
      · rw [List.filterMap_cons_none ((usable?_judge l owner shard).trans (if_neg usable)), ih,
          if_neg (mt of_decide_eq_true usable)]

theorem mem_usables : shard ∈ l.usables owner shards ↔ some shard ∈ shards ∧ l.Usable owner shard := by
  rw [usables, List.mem_filter, List.reduceOption_mem_iff, decide_eq_true_iff]

theorem usables_of_forall (h : ∀ shard ∈ found, l.Usable owner shard) :
    l.usables owner (found.map some) = found := by
  have all : (found.map some).reduceOption = found := by
    rw [List.reduceOption, List.filterMap_map]
    exact List.filterMap_some
  rw [usables, all, List.filter_eq_self]
  exact fun shard hs ↦ decide_eq_true (h shard hs)

theorem usedSlots_judge (l : Layout) (owner : Option Text) (shards : List (Option Shard)) :
    usedSlots (shards.map (l.judge owner)) = (l.usables owner shards).map (·.index.toNat) := by
  rw [usedSlots, filterMap_judge, List.map_map]
  rfl

theorem shardFor?_judge (l : Layout) (owner : Option Text) (shards : List (Option Shard))
    (slot : Nat) : shardFor? (shards.map (l.judge owner)) slot =
      lastFor? (l.usables owner shards) slot := by
  -- the slot of a verdict is a natural number, and only usable shards are known not to be below zero
  have same : ∀ shard ∈ l.usables owner shards,
      (shard.index.toNat == slot) = decide (shard.index = (slot : Int)) := by
    intro shard hs
    have nonneg := (mem_usables.1 hs).2.nonneg
    rw [Bool.eq_iff_iff, beq_iff_eq, decide_eq_true_iff]
    omega
  rw [shardFor?, List.filterMap_reverse, lookup_reverse, filterMap_judge, List.filter_map,
    List.getLast?_map, Option.map_map, lastFor?, ← List.filter_congr same]
  exact Option.map_id'

theorem isSome_lastFor? : (lastFor? found slot).isSome = true ↔
    ∃ shard ∈ found, shard.index = slot := by
  rw [lastFor?, List.getLast?_isSome, ne_eq, List.filter_eq_nil_iff]
  simp

theorem lastFor?_of_forall (h : shard ∈ found) (place : shard.index = slot)
    (only : ∀ other ∈ found, other.index = slot → other = shard) :
    lastFor? found slot = some shard := by
  obtain ⟨last, hl⟩ := Option.isSome_iff_exists.1 (isSome_lastFor?.2 ⟨shard, h, place⟩)
  obtain ⟨among, same⟩ := List.mem_filter.1 (List.mem_of_getLast? hl)
  rw [hl, only last among (of_decide_eq_true same)]

theorem availableSlots_judge (l : Layout) (owner : Option Text) (shards : List (Option Shard)) :
    availableSlots (shards.map (l.judge owner)) = l.filledSlots (l.usables owner shards) := by
  refine availableSlots_eq (List.pairwise_lt_range.filter _) fun slot ↦ ?_
  rw [usedSlots_judge, List.mem_map, filledSlots, List.mem_filter, List.mem_range, isSome_lastFor?]
  constructor
  · rintro ⟨shard, hs, rfl⟩
    have nonneg := (mem_usables.1 hs).2.nonneg
    have inLayout := (mem_usables.1 hs).2.inLayout
    exact ⟨by omega, shard, hs, (Int.toNat_of_nonneg nonneg).symm⟩
  · rintro ⟨-, shard, hs, place⟩
    exact ⟨shard, hs, by omega⟩

theorem length_filledSlots_lt_iff (l : Layout) (found : List Shard) :
    (l.filledSlots found).length < l.data ↔ ∃ slot < l.data, lastFor? found slot = none := by
  conv => lhs; rhs; rw [← List.length_range (n := l.data)]
  rw [filledSlots, List.length_filter_lt_length_iff_exists]
  simp only [List.mem_range, Option.not_isSome_iff_eq_none]

theorem filledSlots_eq_range (h : ∀ slot < l.data, (lastFor? found slot).isSome = true) :
    l.filledSlots found = List.range l.data :=
  List.filter_eq_self.2 fun slot hs ↦ h slot (List.mem_range.1 hs)

theorem payload_judge (l : Layout) (owner : Option Text) (shards : List (Option Shard)) :
    l.payload (shards.map (l.judge owner)) =
      if (l.filledSlots (l.usables owner shards)).length < l.data then
        .error (.notEnoughShards (l.filledSlots (l.usables owner shards)).length l.data)
      else .ok (((l.filledSlots (l.usables owner shards)).filterMap
        (lastFor? (l.usables owner shards))).flatMap (·.data)) := by
  have found : shardFor? (shards.map (l.judge owner)) = lastFor? (l.usables owner shards) :=
    funext (shardFor?_judge l owner shards)
  simp only [payload, availableSlots_judge, found]

theorem filterMap_range {α : Type} {xs : List α} {f : Nat → Option α}
    (h : ∀ i < xs.length, f i = xs[i]?) : (List.range xs.length).filterMap f = xs := by
  induction xs generalizing f with
  | nil => rfl
  | cons x xs ih =>
    have rest := ih (f := f ∘ Nat.succ) fun i hi ↦ h (i + 1) (Nat.succ_lt_succ hi)
    rw [List.length_cons, List.range_succ_eq_map, List.filterMap_cons, List.filterMap_map, rest,
      h 0 (Nat.succ_pos _)]
    rfl

/-- Where the usable shards are one for each slot, they are put together in the order of the slots,
however often and in whatever order they stand in the list. -/
theorem payload_of_slots {xs : List Shard} (size : xs.length = l.data)
    (numbered : ∀ (slot : Nat) (shard : Shard), xs[slot]? = some shard → shard.index = slot)
    (same : ∀ shard, shard ∈ l.usables owner shards ↔ shard ∈ xs) :
    l.payload (shards.map (l.judge owner)) = .ok (xs.flatMap (·.data)) := by
  -- all usable shards of a slot are the same one, so it does not matter which of them is the last
  have found : ∀ slot < xs.length, lastFor? (l.usables owner shards) slot = xs[slot]? := by
    intro slot inside
    have own := List.getElem?_eq_getElem inside
    rw [own]
    apply lastFor?_of_forall ((same _).2 (List.getElem_mem inside)) (numbered slot _ own)
    intro other ho place
    obtain ⟨i, hi⟩ := List.mem_iff_getElem?.1 ((same other).1 ho)
    have number := numbered i other hi
    obtain rfl : i = slot := by omega
    exact Option.some.inj (hi.symm.trans own)
  have full : l.filledSlots (l.usables owner shards) = List.range xs.length := by
    rw [size]
    refine filledSlots_eq_range fun slot inside ↦ ?_
    rw [found slot (size ▸ inside), List.getElem?_eq_getElem (size ▸ inside), Option.isSome_some]
  rw [payload_judge, full, filterMap_range found, if_neg]
  rw [List.length_range, size]
  exact Nat.lt_irrefl _

variable {verdicts : List Verdict}

theorem payload_of_lt (h : (availableSlots verdicts).length < l.data) :
    l.payload verdicts = .error (.notEnoughShards (availableSlots verdicts).length l.data) :=
  if_pos h

theorem data_le_of_payload {bs : Bytes} (h : l.payload verdicts = .ok bs) :
    l.data ≤ (availableSlots verdicts).length := by
  simp only [payload] at h
  split at h
  · cases h
  · omega

end Layout

end ShardVault
