import ShardVault.Digest.Merkle
import ShardVault.Proofs.Bytes.Written
import ShardVault.Proofs.Result

namespace ShardVault

theorem Text.sameDigest_self {t : Text} (h : t.isScalar = true) : sameDigest t t = .ok true := by
  simp [sameDigest, guarded, h]

theorem Text.sameDigest_eq {a b : Text} (ha : a.isScalar = true) (hb : b.isScalar = true) :
    sameDigest a b = .ok (a == b) := by
  simp [sameDigest, guarded, ha, hb]

theorem Text.guarded_eq_ok_iff {α : Type} {texts : List Text} {result a : α} :
    guarded texts result = .ok a ↔ texts.all isScalar = true ∧ result = a := by
  unfold guarded
  split
  · next scalar => simp [scalar]
  · next scalar => simp [scalar]

theorem Text.guarded_eq_error_iff {α : Type} {texts : List Text} {result : α} {failure : Failure} :
    guarded texts result = .error failure ↔
      (∃ t ∈ texts, t.isScalar = false) ∧ failure = .unencodable := by
  have refused : texts.all isScalar = false ↔ ∃ t ∈ texts, t.isScalar = false := by
    simp
  rw [← refused, guarded]
  cases texts.all isScalar with
  | true => simp
  | false => simpa using eq_comm

theorem Text.guarded_congr {α : Type} {texts texts' : List Text} {result : α}
    (h : texts.all isScalar = texts'.all isScalar) :
    guarded texts result = guarded texts' result := by
  simp only [guarded, h]

theorem Text.guarded_bind {α β : Type} (texts : List Text) (a : α) (next : α → List Text)
    (f : α → β) : (guarded texts a >>= fun x ↦ guarded (next x) (f x)) =
      guarded (texts ++ next a) (f a) := by
  simp only [guarded, List.all_append]
  cases texts.all isScalar <;> simp

theorem Text.eq_of_sameDigest {a b : Text} (h : sameDigest a b = .ok true) : a = b :=
  beq_iff_eq.1 (guarded_eq_ok_iff.1 h).2

namespace Merkle

theorem exists_hex_of_mem_nextLevel {level : List Text} :
    ∀ h ∈ nextLevel level, ∃ message, h = Sha256.hex message := by
  induction level using nextLevel.induct with
  | case1 => exact fun _ hh ↦ nomatch hh
  | case2 h => exact List.forall_mem_cons.2 ⟨⟨_, rfl⟩, nofun⟩
  | case3 h h' rest ih => exact List.forall_mem_cons.2 ⟨⟨_, rfl⟩, ih⟩

theorem isScalar_of_mem_nextLevel {level : List Text} :
    ∀ h ∈ nextLevel level, h.isScalar = true := by
  intro h hh
  obtain ⟨message, rfl⟩ := exists_hex_of_mem_nextLevel h hh
  exact Sha256.isScalar_hex message

theorem root_mem_or_hex (leaves : List Text) :
    root leaves ∈ leaves ∨ ∃ message, root leaves = Sha256.hex message := by
  induction leaves using root.induct with
  | case1 => exact .inr ⟨[], root.eq_def []⟩
  | case2 leaf => exact .inl (by simp [root])
  | case3 left right rest ih =>
    rw [root]
    exact .inr (ih.elim (exists_hex_of_mem_nextLevel _) id)

theorem isScalar_root {leaves : List Text} (h : ∀ leaf ∈ leaves, leaf.isScalar = true) :
    (root leaves).isScalar = true := by
  rcases root_mem_or_hex leaves with hm | ⟨message, hm⟩
  · exact h _ hm
  · exact hm ▸ Sha256.isScalar_hex message

theorem length_root {leaves : List Text} (h : ∀ leaf ∈ leaves, leaf.length = 64) :
    (root leaves).length = 64 := by
  rcases root_mem_or_hex leaves with hm | ⟨message, hm⟩
  · exact h _ hm
  · exact hm ▸ Sha256.length_hex message

theorem all_isScalar {leaves : List Text} (h : ∀ leaf ∈ leaves, leaf.isScalar = true) :
    (if leaves.length ≤ 1 then [] else leaves).all Text.isScalar = true := by
  split
  · rfl
  · exact List.all_eq_true.2 h

theorem rootOf_eq {leaves : List Text} (h : ∀ leaf ∈ leaves, leaf.isScalar = true) :
    rootOf leaves = .ok (root leaves) := by
  simp only [rootOf, Text.guarded, all_isScalar h, if_true]

theorem eq_root_of_rootOf {leaves : List Text} {top : Text} (h : rootOf leaves = .ok top) :
    top = root leaves :=
  (Text.guarded_eq_ok_iff.1 h).2.symm

theorem root_nextLevel {level : List Text} (h : 1 < level.length) :
    root (nextLevel level) = root level := by
  match level, h with
  | left :: right :: rest, _ => rw [root.eq_def (left :: right :: rest)]

theorem climb_cons (leaf : Text) (sibling : Sibling) (siblings : List Sibling) :
    climb leaf (sibling :: siblings) = climb (climb leaf [sibling]) siblings := rfl

theorem siblingAt_cons_cons (left right : Text) (rest : List Text) (position : Nat) :
    siblingAt (left :: right :: rest) (position + 2) = siblingAt rest position := by
  rcases Nat.mod_two_eq_zero_or_one position with even | odd
  · simp only [siblingAt, Nat.add_mod_right, even, if_true]
    rfl
  · obtain ⟨before, rfl⟩ : ∃ before, position = before + 1 := ⟨position - 1, by omega⟩
    simp only [siblingAt, Nat.add_mod_right, odd, Nat.one_ne_zero, if_false]
    rfl

theorem climb_siblingAt {level : List Text} {position : Nat} (h : position < level.length) :
    climb (level.getD position []) [siblingAt level position] =
      (nextLevel level).getD (position / 2) [] := by
  induction level using nextLevel.induct generalizing position with
  | case1 => cases h
  | case2 own =>
    obtain rfl : position = 0 := by simpa using h
    rfl
  | case3 left right rest ih =>
    match position, h with
    | 0, _ => rfl
    | 1, _ => rfl
    | position + 2, h =>
      have half : (position + 2) / 2 = position / 2 + 1 := by omega
      rw [half, siblingAt_cons_cons, nextLevel]
      exact ih (by simpa using h)

theorem climb_path {level : List Text} {position : Nat} (h : position < level.length) :
    climb (level.getD position []) (path level position) = root level := by
  induction level, position using path.induct with
  | case1 level position several ih =>
    rw [path, if_pos several, climb_cons, climb_siblingAt h, ih, root_nextLevel several]
    rw [length_nextLevel]
    omega
  | case2 level position single =>
    obtain ⟨leaf, rfl⟩ := List.length_eq_one_iff.1 (show level.length = 1 by omega)
    obtain rfl : position = 0 := by simpa using h
    rw [path, if_neg single, root]
    rfl

theorem isScalar_siblingAt {level : List Text} {position : Nat}
    (hl : ∀ h ∈ level, h.isScalar = true) : (siblingAt level position).hash.isScalar = true := by
  have entry : ∀ (place : Nat) (own : Text), own.isScalar = true →
      (level.getD place own).isScalar = true := by
    intro place own scalar
    rw [List.getD_eq_getElem?_getD]
    cases found : level[place]? with
    | none => exact scalar
    | some h => exact hl h (List.mem_of_getElem? found)
  have own := entry position [] rfl
  unfold siblingAt
  split
  · exact entry (position + 1) _ own
  · exact entry (position - 1) _ own

theorem isScalar_of_mem_path {level : List Text} {position : Nat}
    (hl : ∀ h ∈ level, h.isScalar = true) :
    ∀ sibling ∈ path level position, sibling.hash.isScalar = true := by
  induction level, position using path.induct with
  | case1 level position several ih =>
    rw [path, if_pos several]
    exact List.forall_mem_cons.2 ⟨isScalar_siblingAt hl, ih isScalar_of_mem_nextLevel⟩
  | case2 level position single =>
    rw [path, if_neg single]
    exact List.forall_mem_nil _

/-- The texts that are encoded on the way to a root, with the root itself, are all leaves, for a
single leaf is its own root. -/
theorem all_isScalar_root (leaves : List Text) :
    ((if leaves.length ≤ 1 then [] else leaves).all Text.isScalar && (root leaves).isScalar) =
      leaves.all Text.isScalar := by
  match leaves with
  | [] => simp [root, emptyRoot, Sha256.isScalar_hex]
  | [leaf] => simp [root]
  | left :: right :: rest =>
    have several : ¬ (left :: right :: rest).length ≤ 1 := by simp
    rw [if_neg several, Bool.and_eq_left_iff_imp]
    exact fun h ↦ isScalar_root (List.all_eq_true.1 h)

theorem rootOf_bind_sameDigest (leaves : List Text) (top : Text) :
    (rootOf leaves >>= fun r ↦ Text.sameDigest r top) =
      Text.guarded (top :: leaves) (root leaves == top) := by
  unfold rootOf Text.sameDigest
  rw [Text.guarded_bind]
  apply Text.guarded_congr
  rw [List.all_append, List.all_cons, ← Bool.and_assoc, all_isScalar_root]
  simp [Bool.and_comm]

theorem all_isScalar_path {leaves : List Text} {leaf : Text} {index : Nat}
    (h : leaves[index]? = some leaf) :
    ((if leaves.length ≤ 1 then [] else leaves).all Text.isScalar &&
      (leaf :: (path leaves index).map (·.hash)).all Text.isScalar) =
        leaves.all Text.isScalar := by
  match leaves with
  | [] => cases h
  | [only] =>
    obtain ⟨bound, rfl⟩ := List.getElem?_eq_some_iff.1 h
    obtain rfl : index = 0 := by simpa using bound
    rw [path]
    simp
  | left :: right :: rest =>
    have several : ¬ (left :: right :: rest).length ≤ 1 := by simp
    rw [if_neg several, Bool.and_eq_left_iff_imp]
    intro hl
    rw [List.all_eq_true] at hl ⊢
    exact List.forall_mem_cons.2 ⟨hl leaf (List.mem_of_getElem? h),
      List.forall_mem_map.2 (isScalar_of_mem_path hl)⟩

theorem pathOf_bind_verify {leaves : List Text} {leaf : Text} {index : Nat} (top : Text)
    (h : leaves[index]? = some leaf) :
    (pathOf leaves index >>= fun siblings ↦ verify leaf siblings top) =
      Text.guarded (top :: leaves) (root leaves == top) := by
  have bound := (List.getElem?_eq_some_iff.1 h).1
  have inside : 0 ≤ (index : Int) ∧ (index : Int) < leaves.length := by omega
  have own : leaves.getD index [] = leaf := by rw [List.getD_eq_getElem?_getD, h]; rfl
  have climbs : climb leaf (path leaves index) = root leaves := own ▸ climb_path bound
  unfold verify
  rw [pathOf, if_pos inside, Int.toNat_natCast, Text.guarded_bind, climbs]
  apply Text.guarded_congr
  rw [List.all_cons, ← all_isScalar_path h, List.all_append]
  simp only [List.all_cons, Bool.and_left_comm]

end Merkle

end ShardVault
