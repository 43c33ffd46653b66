import ShardVault.Proofs.Container.Refusals
import ShardVault.Proofs.Shard.Layout

namespace ShardVault

namespace Shard

theorem check_eq {shard : Shard} (h : shard.hash.isScalar = true) :
    shard.check = .ok shard.verify :=
  Text.sameDigest_eq (Sha256.isScalar_hex shard.data) h

theorem check_ofData (fileId : Text) (index : Int) (isParity : Bool) (data : Bytes) :
    (ofData fileId index isParity data).check = .ok true := by
  rw [check_eq (Sha256.isScalar_hex data), verify_ofData]

theorem check_eq_error {shard : Shard} (h : shard.hash.isScalar = false) :
    shard.check = .error .unencodable :=
  Text.guarded_eq_error_iff.2 ⟨⟨shard.hash, by simp, h⟩, rfl⟩

theorem isScalar_of_asciiText? {bs : Bytes} {t : Text} (h : asciiText? bs = some t) :
    t.isScalar = true := by
  unfold asciiText? at h
  split at h
  · next low =>
    obtain rfl := Option.some.inj h
    refine Text.isScalar_of_ascii (List.forall_mem_map.2 fun b hb ↦ ?_)
    have := UInt8.lt_iff_toNat_lt.1 (of_decide_eq_true (List.all_eq_true.1 low b hb))
    rw [CodePoint.val_ofNat (Nat.lt_trans this (by decide))]
    exact this
  · cases h

theorem isScalar_hash_of_decode {bs : Bytes} {shard : Shard} (h : decode bs = .ok shard) :
    shard.hash.isScalar = true := by
  unfold decode at h
  split at h
  · cases h
  split at h
  · cases h
  simp only [ofBody] at h
  split at h
  · cases h
  split at h
  · cases h
  split at h
  · cases h
  split at h
  · next ascii =>
    obtain rfl := Except.ok.inj h
    exact isScalar_of_asciiText? ascii
  · cases h

/-- Shards as they come about: made of their data, or read from any bytes. -/
inductive Arises : Shard → Prop
  | made (fileId : Text) (index : Int) (isParity : Bool) (data : Bytes) :
      Arises (ofData fileId index isParity data)
  | read {bs : Bytes} {shard : Shard} (reads : decode bs = .ok shard) : Arises shard

theorem Arises.isScalar_hash {shard : Shard} (h : shard.Arises) : shard.hash.isScalar = true := by
  cases h with
  | made _ _ _ data => exact Sha256.isScalar_hex data
  | read reads => exact isScalar_hash_of_decode reads

end Shard

namespace Layout

def Unreadable (l : Layout) (owner : Option Text) (shards : List (Option Shard)) : Prop :=
  ∃ shard, some shard ∈ shards ∧ l.Placed owner shard ∧ shard.hash.isScalar = false

variable {l : Layout} {owner : Option Text} {shard : Shard} {shards : List (Option Shard)}

theorem inspect_of_placed (h : l.Placed owner shard) : l.inspect owner (some shard) =
    shard.check.map fun intact ↦
      if intact then .usable shard.index.toNat shard else .damaged shard.index.toNat := by
  obtain ⟨place, own⟩ := placed_iff.1 h
  rw [inspect, if_neg place, if_neg own]

theorem inspect_of_not_placed (h : ¬ l.Placed owner shard) :
    l.inspect owner (some shard) = .ok (l.judge owner (some shard)) := by
  simp only [inspect, judge]
  split
  · rfl
  next place =>
  split
  · rfl
  · next own => exact absurd (placed_iff.2 ⟨place, own⟩) h

theorem inspect_eq_ite (l : Layout) (owner : Option Text) (shard? : Option Shard) :
    l.inspect owner shard? =
      if ∀ shard ∈ shard?, l.Placed owner shard → shard.hash.isScalar = true then
        .ok (l.judge owner shard?)
      else .error .unencodable := by
  cases shard? with
  | none => exact (if_pos nofun).symm
  | some shard =>
    simp only [Option.mem_some_iff, forall_eq']
    by_cases placed : l.Placed owner shard
    · rw [inspect_of_placed placed, judge_of_placed placed]
      by_cases scalar : shard.hash.isScalar = true
      · rw [Shard.check_eq scalar, map_ok, if_pos fun _ ↦ scalar]
      · rw [Shard.check_eq_error (Bool.eq_false_iff.2 scalar), map_error,
          if_neg fun h ↦ scalar (h placed)]
    · rw [inspect_of_not_placed placed, if_pos fun h ↦ absurd h placed]

theorem mapM_inspect (l : Layout) (owner : Option Text) (shards : List (Option Shard)) :
    shards.mapM (l.inspect owner) =
      if shards.all fun shard? ↦
          decide (∀ shard ∈ shard?, l.Placed owner shard → shard.hash.isScalar = true) then
        .ok (shards.map (l.judge owner))
      else .error .unencodable := by
  refine mapM_eq_ite (fun shard? ↦ ?_) shards
  rw [inspect_eq_ite]
  simp only [decide_eq_true_eq]

theorem unreadable_iff : l.Unreadable owner shards ↔ ¬ (shards.all fun shard? ↦
    decide (∀ shard ∈ shard?, l.Placed owner shard → shard.hash.isScalar = true)) = true := by
  simp only [List.all_eq_true, decide_eq_true_eq]
  constructor
  · rintro ⟨shard, hs, placed, surrogate⟩ all
    exact Bool.false_ne_true (surrogate.symm.trans (all _ hs shard rfl placed))
  · intro h
    by_contra readable
    apply h
    intro shard? hs shard same placed
    by_contra surrogate
    exact readable ⟨shard, same ▸ hs, placed, Bool.eq_false_iff.2 surrogate⟩

theorem reconstructFrom_of_unreadable (h : l.Unreadable owner shards) :
    l.reconstructFrom shards none owner = .error .unencodable := by
  rw [reconstructFrom, withCount, ok_bind, mapM_inspect, if_neg (unreadable_iff.1 h), error_bind]

theorem reconstructFrom_of_readable (h : ¬ l.Unreadable owner shards) :
    l.reconstructFrom shards none owner =
      l.payload (shards.map (l.judge owner)) >>= Container.decode := by
  rw [reconstructFrom, withCount, ok_bind, mapM_inspect, if_pos (not_not.1 (mt unreadable_iff.2 h)),
    ok_bind]

theorem not_unreadable_of_isScalar
    (h : ∀ shard, some shard ∈ shards → shard.hash.isScalar = true) :
    ¬ l.Unreadable owner shards := by
  rintro ⟨shard, hs, -, surrogate⟩
  exact Bool.false_ne_true (surrogate.symm.trans (h shard hs))

theorem decode_ne_notEnoughShards (bs : Bytes) (available required : Int) :
    Container.decode bs ≠ .error (.notEnoughShards available required) := by
  intro fails
  rcases (Container.decode_refuses bs).fails.of_eq _ fails with ⟨fault, other⟩ | excess
  · cases other
  · cases Refuses.family?_of_bind excess

/-- What any list of shards gives. Shards are too few just if some slot has no usable shard, and
otherwise the last usable shards of all slots are read as a container; nothing but the usable shards
matters. Only a hash with a surrogate, which no shard has that was made or read, stops the
comparison with it. -/
theorem reconstructFrom_outcome (l : Layout) (owner : Option Text) (shards : List (Option Shard)) :
    (¬ l.Unreadable owner shards →
      (∀ available required : Int,
        l.reconstructFrom shards none owner = .error (.notEnoughShards available required) ↔
          (∃ slot < l.data, lastFor? (l.usables owner shards) slot = none) ∧
            available = (l.filledSlots (l.usables owner shards)).length ∧ required = l.data) ∧
      ((∀ slot < l.data, (lastFor? (l.usables owner shards) slot).isSome = true) →
        l.reconstructFrom shards none owner = Container.decode
          (((List.range l.data).filterMap (lastFor? (l.usables owner shards))).flatMap (·.data))) ∧
      ∀ others : List (Option Shard), ¬ l.Unreadable owner others →
        l.usables owner others = l.usables owner shards →
        l.reconstructFrom others none owner = l.reconstructFrom shards none owner) ∧
    (l.Unreadable owner shards → l.reconstructFrom shards none owner = .error .unencodable) ∧
    ((∀ shard, some shard ∈ shards → shard.Arises) → ¬ l.Unreadable owner shards) := by
  refine ⟨fun readable ↦ ?_, reconstructFrom_of_unreadable, fun arise ↦
    not_unreadable_of_isScalar fun shard hs ↦ (arise shard hs).isScalar_hash⟩
  rw [reconstructFrom_of_readable readable, payload_judge]
  refine ⟨fun available required ↦ ?_, fun full ↦ ?_, fun others readable' same ↦ ?_⟩
  · rw [← length_filledSlots_lt_iff]
    split
    · next few =>
      rw [error_bind, Except.error.injEq, Failure.notEnoughShards.injEq, eq_comm,
        eq_comm (a := (l.data : Int))]
      exact (and_iff_right few).symm
    · next enough =>
      exact iff_of_false (decode_ne_notEnoughShards _ _ _) fun h ↦ enough h.1
  · have enough : ¬ (List.range l.data).length < l.data := by
      rw [List.length_range]
      exact Nat.lt_irrefl _
    rw [filledSlots_eq_range full, if_neg enough, ok_bind]
  · rw [reconstructFrom_of_readable readable', payload_judge, same]

theorem usables_cons_of_usable (h : l.Usable owner shard) :
    l.usables owner (some shard :: shards) = shard :: l.usables owner shards := by
  rw [usables, List.reduceOption_cons_of_some, List.filter_cons, if_pos (decide_eq_true h), usables]

/-- Two usable shards for the only slot among others that are of no use, and those others alone. -/
theorem reconstructFrom_outcome_doubled : ∃ (l : Layout) (earlier later : Shard)
    (useless : List (Option Shard)), earlier.data ≠ later.data ∧ useless.length = 4 ∧
      l.reconstructFrom (some earlier :: some later :: useless) none (some "f") = .ok .blank ∧
      l.reconstructFrom useless none (some "f") = .error (.notEnoughShards 0 1) := by
  let l : Layout := ⟨1, 1, Nat.one_pos, Nat.one_pos⟩
  let earlier := Shard.ofData "f" 0 false []
  let later := Shard.ofData "f" 0 false (Container.bare (Container.blankHeader ""))
  let damaged : Shard := ⟨0, [], "", false, "f"⟩
  let useless : List (Option Shard) :=
    [none, some damaged, some (Shard.ofData "f" 0 true []), some (Shard.ofData "g" 0 false [])]
  have unlike : Sha256.hex [] ≠ "" := by
    intro same
    have size := Sha256.length_hex []
    rw [same] at size
    cases size
  have none : l.usables (some "f") useless = [] := by
    refine List.filter_eq_nil_iff.2 ?_
    show ∀ shard ∈ [damaged, Shard.ofData "f" 0 true [], Shard.ofData "g" 0 false []], _
    simp only [List.forall_mem_cons, decide_eq_true_eq]
    refine ⟨fun h ↦ unlike h.intact, fun h ↦ ?_, fun h ↦ ?_, nofun⟩
    · cases h.isData
    · exact absurd (h.own "f" rfl) (by decide)
  have first : l.Usable (some "f") earlier := usable_ofData "f" Nat.one_pos []
  have second : l.Usable (some "f") later := usable_ofData "f" Nat.one_pos _
  have both : l.usables (some "f") (some earlier :: some later :: useless) = [earlier, later] := by
    rw [usables_cons_of_usable first, usables_cons_of_usable second, none]
  have readable : ∀ shard, some shard ∈ some earlier :: some later :: useless →
      shard.hash.isScalar = true := by
    simp only [useless, List.mem_cons, Option.some.injEq, reduceCtorEq, false_or,
      List.not_mem_nil, or_false, forall_eq_or_imp, forall_eq]
    exact ⟨Sha256.isScalar_hex _, Sha256.isScalar_hex _, rfl, Sha256.isScalar_hex _,
      Sha256.isScalar_hex _⟩
  have all := (reconstructFrom_outcome l (some "f") (some earlier :: some later :: useless)).1
    (not_unreadable_of_isScalar readable)
  have few := (reconstructFrom_outcome l (some "f") useless).1
    (not_unreadable_of_isScalar fun shard hs ↦ readable shard (by simp [hs]))
  rw [both] at all
  rw [none] at few
  have last : lastFor? [earlier, later] 0 = some later := rfl
  have full : ∀ slot < l.data, (lastFor? [earlier, later] slot).isSome = true := by
    intro slot inside
    obtain rfl := Nat.lt_one_iff.1 inside
    rfl
  have spelled : ((List.range l.data).filterMap (lastFor? [earlier, later])).flatMap (·.data) =
      later.data := by
    show ([0].filterMap (lastFor? [earlier, later])).flatMap (·.data) = later.data
    rw [List.filterMap_cons_some last, List.filterMap_nil, List.flatMap_singleton]
  refine ⟨l, earlier, later, useless, nofun, rfl, ?_, ?_⟩
  · rw [all.2.1 full, spelled]
    exact Container.decode_blank
  · exact (few.1 0 1).2 ⟨⟨0, Nat.one_pos, rfl⟩, rfl, rfl⟩

/-- A shard with a lone surrogate for its hash is not usable, and it stops the reading of one that
is. -/
theorem not_reconstructFrom_of_surrogate : ∃ (l : Layout) (shard other : Shard),
    l.usables (some "f") [some shard, some other] = l.usables (some "f") [some shard] ∧
      l.reconstructFrom [some shard] none (some "f") = .ok .blank ∧
      l.reconstructFrom [some shard, some other] none (some "f") = .error .unencodable := by
  obtain ⟨payload, decodes⟩ : ∃ payload, Container.decode payload = .ok .blank :=
    ⟨_, Container.decode_blank⟩
  let l : Layout := ⟨1, 1, Nat.one_pos, Nat.one_pos⟩
  let shard := Shard.ofData "f" (0 : Nat) false payload
  let other : Shard := ⟨0, [], [CodePoint.ofNat 0xD800], false, "f"⟩
  have usable : l.Usable (some "f") shard := usable_ofData "f" Nat.one_pos _
  have unlike : ¬ l.Usable (some "f") other := by
    intro h
    have scalar := Sha256.isScalar_hex other.data
    rw [h.intact] at scalar
    cases scalar
  have useless : l.usables (some "f") [some other] = [] :=
    List.filter_eq_nil_iff.2 (List.forall_mem_singleton.2 fun h ↦ unlike (of_decide_eq_true h))
  refine ⟨l, shard, other, ?_, ?_, reconstructFrom_of_unreadable
    ⟨other, List.mem_cons_of_mem _ (List.mem_singleton_self _), ?_, rfl⟩⟩
  · rw [usables_cons_of_usable usable, usables_cons_of_usable usable, useless]
    rfl
  · have readable : ¬ l.Unreadable (some "f") [some shard] := not_unreadable_of_isScalar
      fun _ hs ↦ Option.some.inj (List.mem_singleton.1 hs) ▸ Sha256.isScalar_hex _
    have alone : [payload].mapIdx (fun i piece ↦ Shard.ofData "f" i false piece) = [shard] :=
      List.mapIdx_singleton
    have whole := @reconstruct_ofData l "f" [payload] (show [payload].length = l.data from rfl)
    rw [alone, List.flatten_singleton, decodes] at whole
    exact (reconstructFrom_of_readable readable).trans whole
  · exact ⟨rfl, Int.le_refl 0, Int.one_pos, fun _ same ↦ Option.some.inj same⟩

end Layout

end ShardVault
