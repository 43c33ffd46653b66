import Mathlib.Algebra.Ring.Nat
import ShardVault.Proofs.Digest.Binding

namespace ShardVault.Merkle

def Sibling.message (s : Sibling) (h : Text) : Bytes :=
  Utf8.encodeAll (if s.isLeft then s.hash ++ h else h ++ s.hash)

/-- The messages that are hashed on the way of a leaf, from the leaves upwards. -/
def climbed (leaf : Text) : List Sibling → List Bytes
  | [] => []
  | s :: siblings => s.message leaf :: climbed (Sha256.hex (s.message leaf)) siblings

theorem climb_cons_eq (leaf : Text) (s : Sibling) (siblings : List Sibling) :
    climb leaf (s :: siblings) = climb (Sha256.hex (s.message leaf)) siblings := by
  rw [climb_cons]
  obtain ⟨hash, isLeft⟩ := s
  cases isLeft with
  | false => rfl
  | true => rfl

/-- A neighbour stands on the same side of both digests, so its own text can be taken away again. -/
theorem Sibling.message_inj {s : Sibling} {a b : Text} (hs : s.hash.isScalar = true)
    (ha : a.isScalar = true) (hb : b.isScalar = true) (h : s.message a = s.message b) : a = b := by
  obtain ⟨hash, isLeft⟩ := s
  have joined {x y : Text} (hx : x.isScalar = true) (hy : y.isScalar = true) :
      (x ++ y).isScalar = true := by
    rw [Text.isScalar_append, hx, hy, Bool.and_self]
  cases isLeft with
  | false => exact List.append_cancel_right (Utf8.encodeAll_injective (joined ha hs) (joined hb hs) h)
  | true => exact List.append_cancel_left (Utf8.encodeAll_injective (joined hs ha) (joined hs hb) h)

theorem eq_or_collision_of_climb_eq {siblings : List Sibling} {a b : Text}
    (hs : ∀ s ∈ siblings, s.hash.isScalar = true) (ha : a.isScalar = true) (hb : b.isScalar = true)
    (same : climb a siblings = climb b siblings) :
    a = b ∨ ∃ p ∈ (climbed a siblings).zip (climbed b siblings), Sha256.Collision p.1 p.2 := by
  induction siblings generalizing a b with
  | nil => exact .inl same
  | cons s siblings ih =>
    obtain ⟨own, others⟩ := List.forall_mem_cons.1 hs
    rw [climb_cons_eq, climb_cons_eq] at same
    rw [climbed, climbed, List.zip_cons_cons]
    rcases ih others (Sha256.isScalar_hex _) (Sha256.isScalar_hex _) same
      with digest | ⟨p, hp, collision⟩
    · rcases Sha256.eq_or_collision digest with message | collision
      · exact .inl (Sibling.message_inj own ha hb message)
      · exact .inr ⟨_, List.mem_cons_self, collision⟩
    · exact .inr ⟨p, List.mem_cons_of_mem _ hp, collision⟩

theorem length_path (level : List Text) (position : Nat) :
    (path level position).length = Nat.clog 2 level.length := by
  induction level, position using path.induct with
  | case1 level position several ih =>
    rw [path, if_pos several, List.length_cons, ih, clog_nextLevel several]
  | case2 level position single =>
    rw [path, if_neg single, Nat.clog_of_right_le_one (Nat.not_lt.1 single), List.length_nil]

theorem pathOf_eq {leaves : List Text} {index : Nat} (h : ∀ leaf ∈ leaves, leaf.isScalar = true)
    (inside : index < leaves.length) : pathOf leaves index = .ok (path leaves index) := by
  rw [pathOf, if_pos ⟨Int.natCast_nonneg index, Int.ofNat_lt.2 inside⟩, Int.toNat_natCast]
  exact Text.guarded_eq_ok_iff.2 ⟨all_isScalar h, rfl⟩

theorem verify_eq_ok_true_iff {leaf top : Text} {siblings : List Sibling} :
    verify leaf siblings top = .ok true ↔ (leaf.isScalar = true ∧ top.isScalar = true ∧
      ∀ s ∈ siblings, s.hash.isScalar = true) ∧ climb leaf siblings = top := by
  rw [verify, Text.guarded_eq_ok_iff, beq_iff_eq, List.all_cons, List.all_cons, List.all_map]
  simp only [Bool.and_eq_true, List.all_eq_true, Function.comp_apply]

/-- The path of a leaf has as many neighbours as there are levels, the least number of halvings that
leave one digest. The leaf is accepted with it under the root, and a text that is accepted is the leaf,
or there is a collision between the two ways, level by level. -/
theorem verify_pathOf (leaves : List Text) (index : Nat) (leaf : Text)
    (scalar : ∀ h ∈ leaves, h.isScalar = true) (found : leaves[index]? = some leaf) :
    ∃ siblings top, pathOf leaves index = .ok siblings ∧ rootOf leaves = .ok top ∧
      leaves.length ≤ 2 ^ siblings.length ∧
      (∀ k, leaves.length ≤ 2 ^ k → siblings.length ≤ k) ∧
      verify leaf siblings top = .ok true ∧
      ∀ other, verify other siblings top = .ok true → other = leaf ∨
        ∃ p ∈ (climbed other siblings).zip (climbed leaf siblings), Sha256.Collision p.1 p.2 := by
  obtain ⟨inside, rfl⟩ := List.getElem?_eq_some_iff.1 found
  have climbs := climb_path inside
  rw [List.getD_eq_getElem?_getD, found, Option.getD_some] at climbs
  have texts : ∀ s ∈ path leaves index, s.hash.isScalar = true := isScalar_of_mem_path scalar
  have own := scalar _ (List.getElem_mem inside)
  refine ⟨_, _, pathOf_eq scalar inside, rootOf_eq scalar, ?_, ?_, ?_, ?_⟩
  · rw [length_path]
    exact Nat.le_pow_clog Nat.one_lt_two _
  · intro k hk
    rw [length_path]
    exact Nat.clog_le_of_le_pow hk
  · exact verify_eq_ok_true_iff.2 ⟨⟨own, isScalar_root scalar, texts⟩, climbs⟩
  · intro other accepted
    obtain ⟨⟨text, -, -⟩, reaches⟩ := verify_eq_ok_true_iff.1 accepted
    exact eq_or_collision_of_climb_eq texts text own (reaches.trans climbs.symm)

theorem verify_pathOf_two : ∃ siblings top, pathOf ["a", "b"] 1 = .ok siblings ∧
    rootOf ["a", "b"] = .ok top ∧ siblings.length = 1 ∧
    verify "b" siblings top = .ok true ∧ verify "c" siblings top ≠ .ok true := by
  obtain ⟨siblings, top, hpath, hroot, -, -, accepted, only⟩ :=
    verify_pathOf ["a", "b"] 1 "b" (by decide) rfl
  have neighbours : siblings = [⟨"a", true⟩] := by
    rw [← Except.ok.inj ((pathOf_eq (by decide) (by decide)).symm.trans hpath)]
    simp [path, nextLevel, siblingAt]
  refine ⟨siblings, top, hpath, hroot, by rw [neighbours]; rfl, accepted, fun other ↦ ?_⟩
  rcases only "c" other with same | ⟨p, hp, -, digest⟩
  · exact absurd same (by decide)
  · rw [neighbours] at hp
    revert p
    decide +kernel

end ShardVault.Merkle
