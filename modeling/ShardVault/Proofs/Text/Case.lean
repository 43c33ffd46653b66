import Mathlib.Data.List.Basic
import ShardVault.Proofs.Text.Digits
import ShardVault.Text.Letter

namespace ShardVault.Text

variable {first last step n : Nat} {run : CaseRun}

/-- None of the code points from `first` to `last` is in a run, as far as the ends of both tell, or
the parity, or the one code point. -/
def CaseRun.misses (first last step : Nat) (run : CaseRun) : Bool :=
  last.blt run.first || run.last.blt first ||
    (step.beq 2 && run.step.beq 2 && ((first + run.first) % 2).beq 1) ||
    (first.beq last && !run.holds first)

def areUpper (first last : Int) (step : Nat) : Bool :=
  match first, last with
  | .ofNat first, .ofNat last =>
    last.blt 0x110000 && upperRuns.all (CaseRun.misses first last step) &&
      upperExpansions.all fun entry ↦ CaseRun.misses first last step ⟨entry.1, entry.1, 2, 0⟩
  | _, _ => false

theorem areUpper_runs : upperRuns.all (fun run ↦
    areUpper (run.first + run.distance) (run.last + run.distance) run.step) = true := by
  decide +kernel

theorem areUpper_expansions :
    upperExpansions.all (fun entry ↦ entry.2.all fun n ↦ areUpper n n 1) = true := by
  decide +kernel

theorem CaseRun.holds_iff : run.holds n = true ↔
    run.first ≤ n ∧ n ≤ run.last ∧ (n - run.first) % run.step = 0 := by
  simp [holds, and_assoc]

theorem CaseRun.not_holds_of_misses (h : run.misses first last step = true) (above : first ≤ n)
    (below : n ≤ last) (even : (n - first) % step = 0) : run.holds n = false := by
  rw [← Bool.not_eq_true, holds_iff]
  simp only [misses, Bool.or_eq_true, Bool.and_eq_true, Nat.blt_eq, Nat.beq_eq] at h
  rintro ⟨above', below', even'⟩
  rcases h with ((h | h) | ⟨⟨two, two'⟩, odd⟩) | ⟨one, other⟩
  · omega
  · omega
  · rw [two] at even
    rw [two'] at even'
    omega
  · obtain rfl : n = first := by omega
    have := holds_iff.2 ⟨above', below', even'⟩
    simp [this] at other

theorem exists_of_areUpper {low high : Int} (h : areUpper low high step = true) :
    ∃ first last : Nat, low = first ∧ high = last ∧
      ∀ n, first ≤ n → n ≤ last → (n - first) % step = 0 →
        upperPoint (CodePoint.ofNat n) = [CodePoint.ofNat n] := by
  unfold areUpper at h
  split at h
  swap
  · cases h
  next low high =>
  simp only [Bool.and_eq_true, Nat.blt_eq, List.all_eq_true] at h
  obtain ⟨⟨bound, runs⟩, expansions⟩ := h
  refine ⟨low, high, rfl, rfl, fun n above below even ↦ ?_⟩
  have val : (CodePoint.ofNat n).val = n := CodePoint.val_ofNat (by omega)
  have whole : upperExpansions.lookup n = none := by
    rw [List.lookup_eq_none_iff]
    intro entry he
    have outside := CaseRun.not_holds_of_misses (expansions entry he) above below even
    rw [bne_iff_ne]
    rintro rfl
    simp [CaseRun.holds] at outside
  have none : (upperRuns.find? fun run ↦ run.holds n) = none := by
    rw [List.find?_eq_none]
    intro run hr
    simp [CaseRun.not_holds_of_misses (runs run hr) above below even]
  simp [upperPoint, counterpart, val, whole, none]

theorem upperPoint_of_holds {c : CodePoint} (h : run ∈ upperRuns) (held : run.holds c.val = true) :
    upperPoint (CodePoint.ofNat (c.val + run.distance).toNat) =
      [CodePoint.ofNat (c.val + run.distance).toNat] := by
  obtain ⟨low, high, above, below, fixed⟩ :=
    exists_of_areUpper (List.all_eq_true.1 areUpper_runs run h)
  obtain ⟨lower, upper, even⟩ := CaseRun.holds_iff.1 held
  have shifted : (c.val + run.distance).toNat - low = c.val - run.first := by omega
  exact fixed _ (by omega) (by omega) (by rw [shifted, even])

theorem upperPoint_of_mem {c d : CodePoint} (h : d ∈ upperPoint c) : upperPoint d = [d] := by
  cases expanded : upperExpansions.lookup c.val with
  | some points =>
    rw [upperPoint, expanded] at h
    obtain ⟨n, hn, rfl⟩ := List.mem_map.1 h
    have entry : (c.val, points) ∈ upperExpansions := by
      obtain ⟨before, after, whole, -⟩ := List.lookup_eq_some_iff.1 expanded
      rw [whole]
      exact List.mem_append_right _ (.head _)
    obtain ⟨low, high, above, below, fixed⟩ := exists_of_areUpper
      (List.all_eq_true.1 (List.all_eq_true.1 areUpper_expansions _ entry) n hn)
    exact fixed n (by omega) (by omega) (Nat.mod_one _)
  | none =>
    cases found : upperRuns.find? fun run ↦ run.holds c.val with
    | some run =>
      simp only [upperPoint, expanded, counterpart, found, List.mem_singleton] at h
      rw [h, upperPoint_of_holds (List.mem_of_find?_eq_some found)]
      simpa using List.find?_some found
    | none =>
      simp only [upperPoint, expanded, counterpart, found, List.mem_singleton] at h
      simp only [h, upperPoint, expanded, counterpart, found]

theorem upper_upper (t : Text) : t.upper.upper = t.upper := by
  have fixed : ∀ d ∈ t.upper, upperPoint d = [d] := by
    intro d hd
    obtain ⟨c, -, hc⟩ := List.mem_flatMap.1 hd
    exact upperPoint_of_mem hc
  calc t.upper.upper = t.upper.flatMap fun d ↦ [d] := List.flatMap_congr fixed
    _ = t.upper := List.flatMap_singleton' _

end ShardVault.Text
