import Mathlib.Data.List.Perm.Basic
import ShardVault.Proofs.Result
import ShardVault.Shard.Parity

namespace ShardVault

namespace Bytes

def xorAll (size : Nat) (parts : List Bytes) : Bytes :=
  parts.foldr xor (zeros size)

theorem xor_comm (a b : Bytes) : xor a b = xor b a :=
  List.zipWith_comm_of_comm UInt8.xor_comm

theorem xor_assoc (a b c : Bytes) : xor (xor a b) c = xor a (xor b c) := by
  induction a generalizing b c with
  | nil => simp [xor]
  | cons x a ih =>
    cases b with
    | nil => simp [xor]
    | cons y b =>
      cases c with
      | nil => simp [xor]
      | cons z c =>
        have rest := ih b c
        simp only [xor, List.zipWith_cons_cons, UInt8.xor_assoc] at rest ⊢
        rw [rest]

instance : LeftCommutative xor where
  left_comm a b c := by rw [← xor_assoc, xor_comm a b, xor_assoc]

theorem zeros_xor (a : Bytes) : xor (zeros a.length) a = a := by
  induction a with
  | nil => rfl
  | cons x a ih =>
    rw [List.length_cons, zeros, List.replicate_succ, xor, List.zipWith_cons_cons, UInt8.zero_xor]
    exact congrArg (x :: ·) ih

variable {size : Nat} {parts : List Bytes}

theorem length_xorAll (h : ∀ part ∈ parts, part.length = size) :
    (xorAll size parts).length = size := by
  induction parts with
  | nil => exact List.length_replicate
  | cons part parts ih =>
    obtain ⟨own, others⟩ := List.forall_mem_cons.1 h
    rw [xorAll, List.foldr_cons, length_xor, own, ← xorAll, ih others, Nat.min_self]

theorem xor_xorAll_eraseIdx (h : ∀ part ∈ parts, part.length = size) {i : Nat}
    (inside : i < parts.length) :
    xor (xorAll size parts) (xorAll size (parts.eraseIdx i)) = parts[i] := by
  have others : (xorAll size (parts.eraseIdx i)).length = size :=
    length_xorAll fun part hp ↦ h part (List.mem_of_mem_eraseIdx hp)
  have all : xorAll size parts = xor parts[i] (xorAll size (parts.eraseIdx i)) :=
    ((List.getElem_cons_eraseIdx_perm inside).foldr_eq (zeros size)).symm
  rw [all]
  apply xor_xor_cancel
  exact Nat.le_of_eq ((h _ (List.getElem_mem inside)).trans others.symm)

end Bytes

namespace Twister

theorem size_foldl_push {α : Type} (f : Array UInt32 → α → UInt32) (xs : List α)
    (words : Array UInt32) :
    (xs.foldl (fun words x ↦ words.push (f words x)) words).size = words.size + xs.length := by
  induction xs generalizing words with
  | nil => rfl
  | cons x xs ih =>
    rw [List.foldl_cons, ih, Array.size_push, List.length_cons]
    omega

theorem size_steps (change : Nat → UInt32 → UInt32 → Nat → UInt32) (n : Nat) (s : Seeding) :
    (s.steps change n).words.size = s.words.size := by
  rw [Seeding.steps]
  induction List.range n generalizing s with
  | nil => rfl
  | cons turn turns ih =>
    rw [List.foldl_cons, ih, Seeding.step]
    split
    · exact Array.size_setIfInBounds
    · rw [Array.size_setIfInBounds, Array.size_setIfInBounds]

theorem size_seeded (seed : Nat) : (seeded seed).size = size := by
  have first : base.size = size := by
    rw [base, size_foldl_push, List.length_range]
    rfl
  rw [seeded, Array.size_setIfInBounds, size_steps, size_steps, first]

theorem length_lowBytes (count : Nat) (w : UInt32) : (lowBytes count w).length = count := by
  rw [lowBytes, List.length_reverse, Bytes.length_ofNat]

theorem length_flatMap_lowBytes (words : List UInt32) :
    (words.flatMap (lowBytes 4)).length = 4 * words.length := by
  induction words with
  | nil => rfl
  | cons w words ih =>
    rw [List.flatMap_cons, List.length_append, length_lowBytes, ih, List.length_cons]
    omega

theorem mapM_draw {numbers : List Nat} (some_number : numbers ≠ []) (count : Nat) :
    numbers.mapM (draw · count) = if 8 * count < 0x80000000
      then .ok (numbers.map (stream · count)) else .error (.overflow .draw) := by
  by_cases fits : 8 * count < 0x80000000
  · rw [if_pos fits]
    exact mapM_eq_ok fun number _ ↦ if_pos fits
  · obtain ⟨number, numbers, rfl⟩ := List.exists_cons_of_ne_nil some_number
    rw [if_neg fits, List.mapM_cons, draw, if_neg fits, error_bind]

@[simp] theorem length_stream (seed count : Nat) : (stream seed count).length = count := by
  simp only [stream, List.length_append, length_flatMap_lowBytes, length_lowBytes,
    List.length_take, List.length_map, List.length_drop, Array.length_toList, length_extend,
    size_seeded]
  omega

end Twister

namespace Parity

theorem addAligned_eq {a b : Bytes} (h : a.length = b.length) : addAligned a b = Bytes.xor a b := by
  simp [addAligned, h, Bytes.zeros]

theorem foldl_addAligned {size : Nat} {parts : List Bytes} {sum : Bytes}
    (h : ∀ part ∈ parts, part.length = size) (hs : sum.length = size) :
    parts.foldl addAligned sum = Bytes.xor sum (Bytes.xorAll size parts) := by
  induction parts generalizing sum with
  | nil =>
    rw [List.foldl_nil, Bytes.xorAll, List.foldr_nil, Bytes.xor_comm, ← hs, Bytes.zeros_xor]
  | cons part parts ih =>
    obtain ⟨own, others⟩ := List.forall_mem_cons.1 h
    have next : (Bytes.xor sum part).length = size := by rw [Bytes.length_xor, hs, own, Nat.min_self]
    rw [List.foldl_cons, addAligned_eq (hs.trans own.symm), ih others next, Bytes.xor_assoc]
    rfl

/-- Slices that are not longer than the size have a parity, and nothing of it is cut off. -/
theorem fold_eq {size : Nat} {slices : List Bytes} (h : ∀ slice ∈ slices, slice.length ≤ size) :
    fold size slices = .ok (Bytes.xorAll size (slices.map (Bytes.padTo size))) := by
  have padded : ∀ part ∈ slices.map (Bytes.padTo size), part.length = size :=
    List.forall_mem_map.2 fun slice hs ↦ by rw [Bytes.length_padTo, Nat.max_eq_right (h slice hs)]
  have sum := Bytes.length_xorAll padded
  have added : (slices.map (Bytes.padTo size)).foldl addAligned (Bytes.zeros size) =
      Bytes.xorAll size (slices.map (Bytes.padTo size)) := by
    conv => rhs; rw [← Bytes.zeros_xor (Bytes.xorAll size _), sum]
    exact foldl_addAligned padded List.length_replicate
  simp only [fold, added, sum, Nat.sub_self, List.take_zero, List.drop_zero, List.all_nil, if_true]

/-- Slices that are not longer than the size have their parities just if the size can be drawn. -/
theorem ofSlices_eq {size : Nat} {slices : List Bytes} (h : ∀ slice ∈ slices, slice.length ≤ size)
    {numbers : List Nat} (some_number : numbers ≠ []) :
    ofSlices size slices numbers = if 8 * size < 0x80000000
      then .ok (numbers.map fun number ↦ Bytes.xor
        (Bytes.xorAll size (slices.map (Bytes.padTo size))) (Twister.stream number size))
      else .error (.overflow .draw) := by
  rw [ofSlices, Twister.mapM_draw some_number]
  split
  · rw [ok_bind, fold_eq h, ok_bind, List.map_map]
    rfl
  · rfl

end Parity

end ShardVault
