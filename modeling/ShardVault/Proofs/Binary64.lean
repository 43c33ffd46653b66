import Mathlib.Algebra.Group.Nat.Defs
import ShardVault.Binary64

namespace ShardVault.Binary64

def scaled (num den : Nat) (s : Int) : Nat × Nat :=
  if s < 0 then (num, den <<< s.natAbs) else (num <<< s.natAbs, den)

theorem scaled_lt {num den : Nat} (hd : 0 < den) {s : Int}
    (hs : s ≤ 53 - (Nat.log2 num : Int) + Nat.log2 den) :
    (scaled num den s).1 / (scaled num den s).2 < 2 ^ 54 := by
  have top : num < 2 ^ (Nat.log2 num + 1) := Nat.lt_log2_self
  have least : 2 ^ Nat.log2 den ≤ den := Nat.log2_self_le (by omega)
  unfold scaled
  split
  · rw [Nat.shiftLeft_eq, Nat.div_lt_iff_lt_mul (Nat.mul_pos hd (Nat.two_pow_pos _))]
    calc num < 2 ^ (Nat.log2 num + 1) := top
      _ ≤ 2 ^ (54 + (Nat.log2 den + s.natAbs)) := Nat.pow_le_pow_right (by decide) (by omega)
      _ = 2 ^ 54 * (2 ^ Nat.log2 den * 2 ^ s.natAbs) := by rw [Nat.pow_add, Nat.pow_add]
      _ ≤ 2 ^ 54 * (den * 2 ^ s.natAbs) := Nat.mul_le_mul_left _ (Nat.mul_le_mul_right _ least)
  · rw [Nat.shiftLeft_eq, Nat.div_lt_iff_lt_mul hd]
    calc num * 2 ^ s.natAbs < 2 ^ (Nat.log2 num + 1) * 2 ^ s.natAbs :=
          Nat.mul_lt_mul_of_pos_right top (Nat.two_pow_pos _)
      _ = 2 ^ (Nat.log2 num + 1 + s.natAbs) := (Nat.pow_add ..).symm
      _ ≤ 2 ^ (54 + Nat.log2 den) := Nat.pow_le_pow_right (by decide) (by omega)
      _ = 2 ^ 54 * 2 ^ Nat.log2 den := Nat.pow_add ..
      _ ≤ 2 ^ 54 * den := Nat.mul_le_mul_left _ least

theorem nearest_le (num den : Nat) : nearest num den ≤ num / den + 1 := by
  simp only [nearest]
  split <;> omega

theorem magnitude_lt {num den : Nat} (hn : Nat.log2 num < 1000) (hd : 0 < den) :
    magnitude num den < infinityBits := by
  unfold magnitude
  split
  · decide
  · simp only []
    generalize hg : (if _ < fractions then _ else _ : Int) = shift
    have range : 52 - (Nat.log2 num : Int) + Nat.log2 den ≤ shift ∧
        shift ≤ 53 - (Nat.log2 num : Int) + Nat.log2 den := by
      rw [← hg]
      split <;> omega
    change (1074 - min shift 1074).toNat * fractions + nearest (scaled num den (min shift 1074)).1
      (scaled num den (min shift 1074)).2 < infinityBits
    have size : (scaled num den (min shift 1074)).1 / (scaled num den (min shift 1074)).2 < 2 ^ 54 :=
      scaled_lt hd (by omega)
    have near := nearest_le (scaled num den (min shift 1074)).1 (scaled num den (min shift 1074)).2
    have place : (1074 - min shift 1074).toNat ≤ 2022 := by omega
    have room : 2022 * fractions + 2 ^ 54 < infinityBits := by decide
    have product := Nat.mul_le_mul_right fractions place
    omega

theorem exists_ofRatio? (negative : Bool) {num den : Nat} (hn : Nat.log2 num < 1000)
    (hd : 0 < den) : ∃ x, ofRatio? negative num den = some x :=
  ⟨_, if_neg (Nat.not_le.2 (magnitude_lt hn hd))⟩

theorem isNaN_of_isFinite {x : Binary64} (finite : x.isFinite = true) : x.isNaN = false := by
  rw [isFinite, decide_eq_true_iff] at finite
  exact decide_eq_false (Nat.lt_asymm finite)

theorem decoded_fst_lt (x : Binary64) : x.decoded.1 < 2 ^ 53 := by
  have low := Nat.mod_lt x.magnitudeBits (show 0 < fractions by decide)
  rw [show fractions = 2 ^ 52 from rfl] at low
  simp only [decoded, show fractions = 2 ^ 52 from rfl]
  split <;> dsimp only <;> omega

theorem decoded_snd_le {x : Binary64} (finite : x.isFinite = true) : x.decoded.2 ≤ 971 := by
  have high : x.magnitudeBits / fractions < 2047 := by
    rw [isFinite, decide_eq_true_iff, infinityBits] at finite
    exact Nat.div_lt_of_lt_mul (by rwa [Nat.mul_comm])
  simp only [decoded]
  split <;> dsimp only <;> omega

theorem integerPart_lt {x : Binary64} (finite : x.isFinite = true) :
    x.ratio.1 / x.ratio.2 < 2 ^ 1024 := by
  have significand := x.decoded_fst_lt
  have exponent := decoded_snd_le finite
  have grows {m n : Nat} (h : m ≤ n) : 2 ^ m ≤ 2 ^ n := Nat.pow_le_pow_right (by decide) h
  rw [show ratio x = if x.decoded.2 < 0 then (x.decoded.1, 1 <<< x.decoded.2.natAbs)
    else (x.decoded.1 <<< x.decoded.2.natAbs, 1) from rfl]
  split
  · calc x.decoded.1 / (1 <<< x.decoded.2.natAbs)
      _ ≤ x.decoded.1 := Nat.div_le_self _ _
      _ < 2 ^ 53 := significand
      _ ≤ 2 ^ 1024 := grows (by decide)
  · calc x.decoded.1 <<< x.decoded.2.natAbs / 1
      _ = x.decoded.1 * 2 ^ x.decoded.2.natAbs := by rw [Nat.div_one, Nat.shiftLeft_eq]
      _ < 2 ^ 53 * 2 ^ x.decoded.2.natAbs :=
          Nat.mul_lt_mul_of_pos_right significand (Nat.two_pow_pos _)
      _ = 2 ^ (53 + x.decoded.2.natAbs) := (Nat.pow_add 2 53 _).symm
      _ ≤ 2 ^ 1024 := grows (by omega)

end ShardVault.Binary64
