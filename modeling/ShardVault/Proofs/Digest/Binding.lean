import Mathlib.Data.Nat.Log
import ShardVault.Proofs.Digest.Merkle

namespace ShardVault.Merkle

def pairs : List Text → List Bytes
  | [] => []
  | [h] => [Utf8.encodeAll (h ++ h)]
  | h :: h' :: rest => Utf8.encodeAll (h ++ h') :: pairs rest

theorem nextLevel_eq_map (level : List Text) : nextLevel level = (pairs level).map Sha256.hex := by
  induction level using nextLevel.induct with
  | case1 => rfl
  | case2 h => rfl
  | case3 h h' rest ih => rw [nextLevel, pairs, List.map_cons, ih, join]

theorem getElem?_pairs (level : List Text) (position : Nat) : (pairs level)[position]? =
    level[2 * position]?.map fun h ↦
      Utf8.encodeAll (h ++ level.getD (2 * position + 1) h) := by
  induction level using pairs.induct generalizing position with
  | case1 => rfl
  | case2 h => cases position <;> rfl
  | case3 h h' rest ih =>
    cases position with
    | zero => rfl
    | succ position =>
      have twice : 2 * (position + 1) = 2 * position + 2 := by omega
      rw [twice, pairs, List.getElem?_cons_succ, ih]
      rfl

def hashed : List Text → List Bytes
  | [] => [[]]
  | [_] => []
  | h :: h' :: rest => pairs (h :: h' :: rest) ++ hashed (nextLevel (h :: h' :: rest))
  termination_by level => level.length
  decreasing_by simp [length_nextLevel]; omega

theorem hashed_eq {level : List Text} (h : 1 < level.length) :
    hashed level = pairs level ++ hashed (nextLevel level) := by
  match level, h with
  | _ :: _ :: _, _ => rw [hashed]

theorem clog_nextLevel {level : List Text} (h : 1 < level.length) :
    Nat.clog 2 level.length = Nat.clog 2 (nextLevel level).length + 1 := by
  rw [length_nextLevel, Nat.clog_of_two_le Nat.one_lt_two h, Nat.add_sub_assoc Nat.one_lt_two.le]

theorem exists_hashed_of_mem_nextLevel {level : List Text} {h : Text} (several : 1 < level.length)
    (hh : h ∈ nextLevel level) : ∃ message ∈ hashed level, h = Sha256.hex message := by
  rw [nextLevel_eq_map, List.mem_map] at hh
  obtain ⟨message, hm, rfl⟩ := hh
  exact ⟨message, hashed_eq several ▸ List.mem_append_left _ hm, rfl⟩

/-- The leaf that stands at a position under the root. A position behind the leaves is one of those
where the last digest of an odd level is repeated. -/
def origin (leaves position : Nat) : Nat :=
  if 1 < leaves then
    let left := 2 * origin ((leaves + 1) / 2) (position / 2)
    if left + position % 2 < leaves then left + position % 2 else left
  else 0
  termination_by leaves

theorem origin_of_lt {leaves position : Nat} (h : position < leaves) :
    origin leaves position = position := by
  induction leaves using Nat.strong_induction_on generalizing position with
  | h leaves ih =>
    rw [origin]
    split
    · next several =>
      rw [ih ((leaves + 1) / 2) (by omega) (show position / 2 < (leaves + 1) / 2 by omega)]
      have parts : 2 * (position / 2) + position % 2 = position := by omega
      simp only [parts, h, if_true]
    · omega

def levelAbove : Nat → List Text → List Text
  | 0, level => level
  | steps + 1, level => levelAbove steps (nextLevel level)

section Levels

variable {level : List Text} {steps : Nat}

theorem several_of_lt_clog (h : steps < Nat.clog 2 level.length) : 1 < level.length := by
  by_contra few
  rw [Nat.clog_of_right_le_one (Nat.not_lt.1 few)] at h
  exact Nat.not_lt_zero _ h

theorem root_levelAbove (h : steps ≤ Nat.clog 2 level.length) :
    root (levelAbove steps level) = root level := by
  induction steps generalizing level with
  | zero => rfl
  | succ steps ih =>
    have several := several_of_lt_clog h
    rw [levelAbove, ih, root_nextLevel several]
    rw [clog_nextLevel several] at h
    exact Nat.le_of_succ_le_succ h

theorem clog_levelAbove (h : steps ≤ Nat.clog 2 level.length) :
    Nat.clog 2 (levelAbove steps level).length = Nat.clog 2 level.length - steps := by
  induction steps generalizing level with
  | zero => rfl
  | succ steps ih =>
    have step := clog_nextLevel (several_of_lt_clog h)
    rw [step] at h ⊢
    rw [levelAbove, ih (Nat.le_of_succ_le_succ h), Nat.add_sub_add_right]

theorem hashed_levelAbove_subset (h : steps ≤ Nat.clog 2 level.length) :
    hashed (levelAbove steps level) ⊆ hashed level := by
  induction steps generalizing level with
  | zero => exact List.Subset.refl _
  | succ steps ih =>
    have several := several_of_lt_clog h
    rw [clog_nextLevel several] at h
    rw [hashed_eq several]
    exact fun _ hm ↦ List.mem_append_right _ (ih (Nat.le_of_succ_le_succ h) hm)

theorem nextLevel_ne_nil (h : level ≠ []) : nextLevel level ≠ [] := by
  have occupied := List.length_pos_iff.2 h
  rw [← List.length_pos_iff, length_nextLevel]
  omega

theorem levelAbove_ne_nil (h : level ≠ []) : levelAbove steps level ≠ [] := by
  induction steps generalizing level with
  | zero => exact h
  | succ steps ih => exact ih (nextLevel_ne_nil h)

theorem exists_hashed_of_mem_levelAbove {h : Text} (above : 0 < steps)
    (inside : steps ≤ Nat.clog 2 level.length) (hh : h ∈ levelAbove steps level) :
    ∃ message ∈ hashed level, h = Sha256.hex message := by
  induction steps generalizing level with
  | zero => exact absurd above (Nat.lt_irrefl 0)
  | succ steps ih =>
    have several := several_of_lt_clog inside
    cases steps with
    | zero => exact exists_hashed_of_mem_nextLevel several hh
    | succ steps =>
      rw [clog_nextLevel several] at inside
      obtain ⟨message, hm, rfl⟩ := ih (Nat.succ_pos steps) (Nat.le_of_succ_le_succ inside) hh
      exact ⟨message, hashed_eq several ▸ List.mem_append_right _ hm, rfl⟩

end Levels

/-- Digests as they are hashed: texts that can be encoded, all of one length. -/
structure IsDigests (level : List Text) : Prop where
  scalar : ∀ h ∈ level, h.isScalar = true
  length : ∀ h ∈ level, h.length = 64

theorem isDigests_nextLevel (level : List Text) : IsDigests (nextLevel level) where
  scalar := isScalar_of_mem_nextLevel
  length h hh := by
    obtain ⟨message, rfl⟩ := exists_hex_of_mem_nextLevel h hh
    exact Sha256.length_hex message

theorem IsDigests.levelAbove {level : List Text} (h : IsDigests level) (steps : Nat) :
    IsDigests (levelAbove steps level) := by
  induction steps generalizing level with
  | zero => exact h
  | succ steps ih => exact ih (isDigests_nextLevel level)

section Positions

variable {given known : List Text} {position place : Nat} {leaf : Text}

theorem mem_getD {level : List Text} {own : Text} (position : Nat) (h : own ∈ level) :
    level.getD position own ∈ level := by
  rw [List.getD_eq_getElem?_getD]
  cases found : level[position]? with
  | none => exact h
  | some other => exact List.mem_of_getElem? found

theorem getElem?_ite_getD {level : List Text} {own : Text} (h : level[2 * place]? = some own) :
    level[if 2 * place + 1 < level.length then 2 * place + 1 else 2 * place]? =
      some (level.getD (2 * place + 1) own) := by
  rw [List.getD_eq_getElem?_getD]
  split
  · next within => rw [List.getElem?_eq_getElem within, Option.getD_some]
  · next beyond => rw [List.getElem?_eq_none (Nat.not_lt.1 beyond), Option.getD_none, h]

theorem eq_of_append_eq {a b x y : Text} (same : a ++ b = x ++ y) (hx : x.length = 64)
    (hy : y.length = 64) (one : a.length = 64 ∨ b.length = 64) : a = x ∧ b = y := by
  apply List.append_inj same
  have total := congrArg List.length same
  simp only [List.length_append] at total
  omega

/-- A message that was hashed for two levels was made of the same two digests, as soon as one of
them has the length of a digest. -/
theorem getElem?_of_pairs_eq (scalar : ∀ h ∈ given, h.isScalar = true) (digests : IsDigests known)
    (same : (pairs known)[place]? = (pairs given)[position / 2]?)
    (found : given[position]? = some leaf) (size : leaf.length = 64) :
    known[if 2 * place + position % 2 < known.length then 2 * place + position % 2
      else 2 * place]? = some leaf := by
  have inside := (List.getElem?_eq_some_iff.1 found).1
  have hleft := List.getElem?_eq_getElem (show 2 * (position / 2) < given.length by omega)
  generalize given[2 * (position / 2)] = left at hleft
  rw [getElem?_pairs, getElem?_pairs, hleft, Option.map_some, Option.map_eq_some_iff] at same
  obtain ⟨left', hleft', same⟩ := same
  have hl := List.mem_of_getElem? hleft
  have hl' := List.mem_of_getElem? hleft'
  have hr := mem_getD (2 * (position / 2) + 1) hl
  have hr' := mem_getD (2 * place + 1) hl'
  have joined := Utf8.encodeAll_injective
    (by rw [Text.isScalar_append, digests.scalar _ hl', digests.scalar _ hr', Bool.and_self])
    (by rw [Text.isScalar_append, scalar _ hl, scalar _ hr, Bool.and_self]) same
  have parts := eq_of_append_eq joined.symm (digests.length _ hl') (digests.length _ hr')
  rcases Nat.mod_two_eq_zero_or_one position with even | odd
  · have here : 2 * (position / 2) = position := by omega
    rw [here, found] at hleft
    obtain rfl := Option.some.inj hleft
    obtain ⟨rfl, -⟩ := parts (.inl size)
    rw [even, Nat.add_zero, ite_self, hleft']
  · have here : 2 * (position / 2) + 1 = position := by omega
    have right : given.getD (2 * (position / 2) + 1) left = leaf := by
      rw [here, List.getD_eq_getElem?_getD, found, Option.getD_some]
    rw [right] at parts
    obtain ⟨-, rfl⟩ := parts (.inr size)
    rw [odd, getElem?_ite_getD hleft']

/-- Under one root, a tree has the leaf of another of the same height at every position. -/
theorem getElem?_origin (scalar : ∀ h ∈ given, h.isScalar = true) (digests : IsDigests known)
    (nonempty : known ≠ []) (height : Nat.clog 2 given.length = Nat.clog 2 known.length)
    (sameRoot : root given = root known)
    (distinct : ∀ x ∈ hashed known, ∀ y ∈ hashed given, ¬ Sha256.Collision x y)
    (found : given[position]? = some leaf) (size : leaf.length = 64) :
    known[origin known.length position]? = some leaf := by
  induction given using root.induct generalizing known position leaf with
  | case1 => cases found
  | case2 only =>
    have single : known.length ≤ 1 := by
      by_contra several
      rw [List.length_singleton, Nat.clog_of_right_le_one (Nat.le_refl 1)] at height
      have := Nat.clog_pos Nat.one_lt_two (Nat.not_le.1 several)
      omega
    obtain ⟨last, rfl⟩ : ∃ last, known = [last] :=
      List.length_eq_one_iff.1 (Nat.le_antisymm single (List.length_pos_iff.2 nonempty))
    obtain ⟨rfl, rfl⟩ : position = 0 ∧ only = leaf := by
      cases position with
      | zero => exact ⟨rfl, Option.some.inj found⟩
      | succ position => cases found
    rw [List.length_singleton, origin, if_neg (Nat.lt_irrefl 1), List.getElem?_cons_zero]
    simpa only [root, Option.some.injEq] using sameRoot.symm
  | case3 first second rest ih =>
    generalize hg : first :: second :: rest = given at *
    have several : 1 < given.length := by
      rw [← hg, List.length_cons, List.length_cons]
      omega
    have several' : 1 < known.length := by
      apply several_of_lt_clog
      rw [← height]
      exact Nat.clog_pos Nat.one_lt_two several
    have inside := (List.getElem?_eq_some_iff.1 found).1
    obtain ⟨message, hm⟩ : ∃ message, (pairs given)[position / 2]? = some message := by
      rw [getElem?_pairs, List.getElem?_eq_getElem (show 2 * (position / 2) < given.length by omega)]
      exact ⟨_, rfl⟩
    have above : (nextLevel given)[position / 2]? = some (Sha256.hex message) := by
      rw [nextLevel_eq_map, List.getElem?_map, hm]
      rfl
    have parent := ih isScalar_of_mem_nextLevel (isDigests_nextLevel known)
      (nextLevel_ne_nil nonempty)
      (by rw [clog_nextLevel several, clog_nextLevel several'] at height; omega)
      (by rw [root_nextLevel several, root_nextLevel several', sameRoot])
      (fun x hx y hy ↦ distinct x (hashed_eq several' ▸ List.mem_append_right _ hx) y
        (hashed_eq several ▸ List.mem_append_right _ hy))
      above (Sha256.length_hex message)
    rw [length_nextLevel, nextLevel_eq_map, List.getElem?_map, Option.map_eq_some_iff] at parent
    obtain ⟨message', hm', digest⟩ := parent
    obtain rfl := (Sha256.eq_or_collision digest).resolve_right (distinct _
      (hashed_eq several' ▸ List.mem_append_left _ (List.mem_of_getElem? hm')) _
      (hashed_eq several ▸ List.mem_append_left _ (List.mem_of_getElem? hm)))
    rw [origin, if_pos several']
    exact getElem?_of_pairs_eq scalar digests (hm'.trans hm.symm) found size

/-- Under one root, a leaf of a tree is the leaf of the other at its position, or, if the trees
differ in height, a digest of one tree is a leaf of the other. -/
theorem leaf_cases (scalar : ∀ h ∈ given, h.isScalar = true) (digests : IsDigests known)
    (nonempty : known ≠ []) (sameRoot : root given = root known)
    (distinct : ∀ x ∈ hashed known, ∀ y ∈ hashed given, ¬ Sha256.Collision x y)
    (found : given[position]? = some leaf) (size : leaf.length = 64) :
    (Nat.clog 2 given.length = Nat.clog 2 known.length ∧
        known[origin known.length position]? = some leaf) ∨
      (Nat.clog 2 given.length < Nat.clog 2 known.length ∧
        ∃ message ∈ hashed known, leaf = Sha256.hex message) ∨
      (Nat.clog 2 known.length < Nat.clog 2 given.length ∧
        ∃ message ∈ hashed given, known[0]? = some (Sha256.hex message)) := by
  rcases Nat.lt_trichotomy (Nat.clog 2 given.length) (Nat.clog 2 known.length)
    with lower | equal | higher
  · refine .inr (.inl ⟨lower, ?_⟩)
    generalize hk : Nat.clog 2 known.length - Nat.clog 2 given.length = steps
    have inside : steps ≤ Nat.clog 2 known.length := by omega
    have level := getElem?_origin scalar (digests.levelAbove steps) (levelAbove_ne_nil nonempty)
      (by rw [clog_levelAbove inside]; omega) (sameRoot.trans (root_levelAbove inside).symm)
      (fun x hx ↦ distinct x (hashed_levelAbove_subset inside hx)) found size
    exact exists_hashed_of_mem_levelAbove (by omega) inside (List.mem_of_getElem? level)
  · exact .inl ⟨equal, getElem?_origin scalar digests nonempty equal sameRoot distinct found size⟩
  · refine .inr (.inr ⟨higher, ?_⟩)
    obtain ⟨steps, hk⟩ : ∃ steps, Nat.clog 2 given.length - Nat.clog 2 known.length = steps + 1 :=
      Nat.exists_eq_add_one.2 (by omega)
    have inside : steps + 1 ≤ Nat.clog 2 given.length := by omega
    have above : IsDigests (levelAbove (steps + 1) given) :=
      (isDigests_nextLevel given).levelAbove steps
    have occupied : levelAbove (steps + 1) given ≠ [] :=
      levelAbove_ne_nil (List.ne_nil_of_mem (List.mem_of_getElem? found))
    have first := List.getElem?_eq_getElem (List.length_pos_iff.2 occupied)
    obtain ⟨message, hm, digest⟩ := exists_hashed_of_mem_levelAbove (Nat.succ_pos steps) inside
      (List.mem_of_getElem? first)
    rw [digest] at first
    have level := getElem?_origin above.scalar digests nonempty
      (by rw [clog_levelAbove inside]; omega) ((root_levelAbove inside).trans sameRoot)
      (fun x hx y hy ↦ distinct x hx y (hashed_levelAbove_subset inside hy)) first
      (Sha256.length_hex message)
    rw [origin_of_lt (List.length_pos_iff.2 nonempty)] at level
    exact ⟨message, hm, level⟩

end Positions

/-- A root above two leaves or more is the digest of some text, if one of the leaves is some text. -/
theorem exists_hashed_root {level : List Text} (several : 1 < level.length)
    (scalar : ∀ h ∈ level, h.isScalar = true) (nonempty : ∃ h ∈ level, h ≠ []) :
    ∃ message ∈ hashed level, message ≠ [] ∧ root level = Sha256.hex message := by
  induction level using root.induct with
  | case1 => cases several
  | case2 h => exact absurd several (Nat.lt_irrefl 1)
  | case3 first second rest ih =>
    cases rest with
    | nil =>
      refine ⟨Utf8.encodeAll (first ++ second), by simp [hashed, pairs], fun empty ↦ ?_, by
        simp [root, nextLevel, join]⟩
      have joined : (first ++ second).isScalar = true := by
        rw [Text.isScalar_append, scalar first (by simp), scalar second (by simp), Bool.and_self]
      have parts := List.append_eq_nil_iff.1 (Utf8.encodeAll_injective joined (t := []) rfl empty)
      obtain ⟨h, hh, text⟩ := nonempty
      simp only [List.mem_cons, List.not_mem_nil, or_false] at hh
      rcases hh with rfl | rfl
      · exact text parts.1
      · exact text parts.2
    | cons third rest =>
      have several' : 1 < (nextLevel (first :: second :: third :: rest)).length := by
        rw [length_nextLevel]
        simp only [List.length_cons]
        omega
      have hex := (isDigests_nextLevel (first :: second :: third :: rest)).length
        (join first second) (List.mem_cons_self ..)
      obtain ⟨message, hm, text, digest⟩ := ih several' isScalar_of_mem_nextLevel
        ⟨_, List.mem_cons_self .., fun empty ↦ by rw [empty] at hex; cases hex⟩
      exact ⟨message, hashed_eq several ▸ List.mem_append_right _ hm, text,
        (root_nextLevel several).symm.trans digest⟩

/-- The root tells lists of as many digests apart: they have one root just if they are the same
digests in the same order. -/
theorem rootOf_eq_iff (leaves leaves' : List Text) (digests : IsDigests leaves)
    (digests' : IsDigests leaves') (count : leaves.length = leaves'.length)
    (distinct : ∀ x ∈ hashed leaves, ∀ y ∈ hashed leaves', ¬ Sha256.Collision x y) :
    ∃ top top', rootOf leaves = .ok top ∧ rootOf leaves' = .ok top' ∧
      (top = top' ↔ leaves = leaves') := by
  refine ⟨_, _, rootOf_eq digests.scalar, rootOf_eq digests'.scalar, fun sameRoot ↦ ?_,
    congrArg root⟩
  apply List.ext_getElem count
  intro position inside inside'
  have nonempty : leaves ≠ [] := List.ne_nil_of_length_pos (Nat.zero_lt_of_lt inside)
  have own := getElem?_origin digests'.scalar digests nonempty (congrArg (Nat.clog 2) count.symm)
    sameRoot.symm distinct (List.getElem?_eq_getElem inside')
    (digests'.length _ (List.getElem_mem inside'))
  rw [origin_of_lt inside, List.getElem?_eq_getElem inside] at own
  exact Option.some.inj own

theorem rootOf_eq_iff_exchanged : ∃ a b top top', IsDigests [a, b] ∧ IsDigests [b, a] ∧
    rootOf [a, b] = .ok top ∧ rootOf [b, a] = .ok top' ∧ top ≠ top' := by
  let ones : Text := List.replicate 64 '1'
  let twos : Text := List.replicate 64 '2'
  have message (a b : Text) : hashed [a, b] = [Utf8.encodeAll (a ++ b)] := by
    simp [hashed, pairs, nextLevel]
  have distinct : ∀ x ∈ hashed [ones, twos], ∀ y ∈ hashed [twos, ones], ¬ Sha256.Collision x y := by
    rw [message, message]
    unfold Sha256.Collision
    decide +kernel
  have first : IsDigests [ones, twos] := ⟨by decide, by decide⟩
  have second : IsDigests [twos, ones] := ⟨by decide, by decide⟩
  obtain ⟨top, top', root, root', same⟩ := rootOf_eq_iff _ _ first second rfl distinct
  refine ⟨ones, twos, top, top', first, second, root, root', fun h ↦ ?_⟩
  have exchanged := (List.cons.inj (same.1 h)).1
  revert exchanged
  decide

end ShardVault.Merkle
