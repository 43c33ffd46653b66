import Mathlib.Data.List.Sort
import ShardVault.Proofs.Result
import ShardVault.Time.DateTime

namespace ShardVault

namespace DateTime

/-- All points in time have a distance from universal time, or none has. -/
def comparable (times : List DateTime) : Bool :=
  times.all (·.isAware) || times.all (!·.isAware)

variable {α : Type} {when : α → DateTime} {items : List α}

theorem mixed_eq_not_comparable (when : α → DateTime) (items : List α) :
    (items.any (fun i ↦ (when i).isAware) && items.any fun i ↦ !(when i).isAware) =
      !comparable (items.map when) := by
  simp only [comparable, List.all_map, Function.comp_def, Bool.not_or, List.not_all_eq_any_not,
    Bool.not_not, Bool.and_comm]

def notBefore (when : α → DateTime) (a b : α) : Bool :=
  decide ((when b).instant ≤ (when a).instant)

theorem newestFirst_eq (when : α → DateTime) (items : List α) : newestFirst when items =
    if comparable (items.map when) then .ok (items.mergeSort (notBefore when))
    else .error .unorderedTimes := by
  rw [newestFirst, mixed_eq_not_comparable]
  cases comparable (items.map when) <;> rfl

theorem newestFirst_of_comparable (h : comparable (items.map when) = true) :
    ∃ sorted, newestFirst when items = .ok sorted ∧ sorted.Perm items := by
  rw [newestFirst_eq, if_pos h]
  exact ⟨_, rfl, List.mergeSort_perm items _⟩

theorem newestFirst_of_not_comparable (h : comparable (items.map when) = false) :
    newestFirst when items = .error .unorderedTimes := by
  rw [newestFirst_eq, h]
  rfl

theorem comparable_perm {times times' : List DateTime} (h : times.Perm times') :
    comparable times = comparable times' := by
  rw [comparable, comparable, h.all_eq, h.all_eq]

theorem comparable_of_isAware {times : List DateTime} {aware : Bool}
    (h : ∀ time ∈ times, time.isAware = aware) : comparable times = true := by
  rw [comparable, Bool.or_eq_true, List.all_eq_true, List.all_eq_true]
  cases aware with
  | true => exact .inl h
  | false => exact .inr fun time ht ↦ by rw [h time ht]; rfl

theorem notBefore_trans (when : α → DateTime) (a b c : α) (hab : notBefore when a b = true)
    (hbc : notBefore when b c = true) : notBefore when a c = true := by
  simp only [notBefore, decide_eq_true_eq] at *
  omega

theorem notBefore_total (when : α → DateTime) (a b : α) :
    (notBefore when a b || notBefore when b a) = true := by
  simp only [notBefore, Bool.or_eq_true, decide_eq_true_eq]
  omega

theorem newestFirst_eq_ok {sorted : List α} (h : newestFirst when items = .ok sorted) :
    items.mergeSort (notBefore when) = sorted := by
  rw [newestFirst_eq] at h
  split at h
  · exact Except.ok.inj h
  · cases h

theorem newestFirst_map {β : Type} (f : β → α) (items : List β) :
    newestFirst when (items.map f) =
      (newestFirst (when ∘ f) items).map (List.map f) := by
  rw [newestFirst_eq, newestFirst_eq, List.map_map]
  split
  · have sorted : (items.mergeSort (notBefore (when ∘ f))).map f =
        (items.map f).mergeSort (notBefore when) := List.map_mergeSort fun _ _ _ _ ↦ rfl
    rw [map_ok, sorted]
  · rfl

theorem pairwise_newestFirst {sorted : List α} (h : newestFirst when items = .ok sorted) :
    sorted.Pairwise fun a b ↦ (when b).instant ≤ (when a).instant := by
  rw [← newestFirst_eq_ok h]
  exact (List.pairwise_mergeSort (notBefore_trans when) (notBefore_total when) items).imp
    of_decide_eq_true

theorem filter_newestFirst {sorted : List α} (h : newestFirst when items = .ok sorted)
    (moment : Int) : (sorted.filter fun a ↦ (when a).instant = moment) =
      items.filter fun a ↦ (when a).instant = moment := by
  have alike : (items.filter fun a ↦ (when a).instant = moment).Pairwise
      (notBefore when · · = true) := by
    refine List.pairwise_of_forall_mem_list fun a ha b hb ↦ ?_
    have ha := of_decide_eq_true (List.mem_filter.1 ha).2
    have hb := of_decide_eq_true (List.mem_filter.1 hb).2
    exact decide_eq_true (hb.trans ha.symm).le
  have kept := List.sublist_mergeSort (notBefore_trans when) (notBefore_total when) alike
    List.filter_sublist
  rw [newestFirst_eq_ok h] at kept
  have perm : sorted.Perm items := newestFirst_eq_ok h ▸ List.mergeSort_perm items _
  have sub := kept.filter fun a ↦ decide ((when a).instant = moment)
  rw [List.filter_filter] at sub
  simp only [Bool.and_self] at sub
  exact (sub.eq_of_length (perm.filter _).length_eq.symm).symm

end DateTime

end ShardVault
