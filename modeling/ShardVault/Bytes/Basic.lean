namespace ShardVault

abbrev Bytes := List UInt8

namespace Bytes

def toNat (bs : Bytes) : Nat :=
  bs.foldl (fun n b => n * 256 + b.toNat) 0

def ofNat : (width n : Nat) → Bytes
  | 0, _ => []
  | width + 1, n => ofNat width (n / 256) ++ [UInt8.ofNat n]

def xor (a b : Bytes) : Bytes :=
  List.zipWith (· ^^^ ·) a b

def zeros (size : Nat) : Bytes :=
  List.replicate size 0

/-- Fill up with zero bytes on the right; a string that is long enough stays as it is. -/
def padTo (size : Nat) (bs : Bytes) : Bytes :=
  bs ++ zeros (size - bs.length)

@[simp] theorem length_ofNat (width n : Nat) : (ofNat width n).length = width := by
  induction width generalizing n with
  | zero => rfl
  | succ width ih => simp [ofNat, ih]

@[simp] theorem length_xor (a b : Bytes) : (xor a b).length = min a.length b.length := by
  simp [xor]

@[simp] theorem length_padTo (size : Nat) (bs : Bytes) :
    (padTo size bs).length = max bs.length size := by
  simp [padTo, zeros]; omega

theorem xor_xor_cancel (a k : Bytes) (h : a.length ≤ k.length) : xor (xor a k) k = a := by
  induction a generalizing k with
  | nil => simp [xor]
  | cons x a ih =>
    cases k with
    | nil => simp at h
    | cons y k =>
      have hx : x ^^^ y ^^^ y = x := by rw [UInt8.xor_assoc, UInt8.xor_self, UInt8.xor_zero]
      have := ih k (by simpa using h)
      simp_all [xor]

end Bytes

/-- At most `fuel` consecutive pieces of `size` elements, until the list is used up. -/
def chunksFrom {α : Type} (size : Nat) : (fuel : Nat) → List α → List (List α)
  | 0, _ => []
  | _, [] => []
  | fuel + 1, x :: xs => (x :: xs).take size :: chunksFrom size fuel ((x :: xs).drop size)

/-- The consecutive pieces of `size` elements of a list; the last one may be shorter. -/
def chunks {α : Type} (size : Nat) (xs : List α) : List (List α) :=
  chunksFrom size xs.length xs

theorem chunksFrom_flatten {α : Type} {size : Nat} (hs : 0 < size) (fuel : Nat) (xs : List α)
    (h : xs.length ≤ fuel) : (chunksFrom size fuel xs).flatten = xs := by
  induction fuel generalizing xs with
  | zero => simp_all [chunksFrom]
  | succ fuel ih =>
    cases xs with
    | nil => simp [chunksFrom]
    | cons x xs =>
      rw [chunksFrom, List.flatten_cons, ih, List.take_append_drop]
      simp at h ⊢; omega

theorem chunks_flatten {α : Type} {size : Nat} (hs : 0 < size) (xs : List α) :
    (chunks size xs).flatten = xs :=
  chunksFrom_flatten hs xs.length xs (Nat.le_refl _)

end ShardVault
