import Mathlib.Data.List.Induction
import ShardVault.Digest.Sha256
import ShardVault.Proofs.Text.Utf8

namespace ShardVault

theorem Bytes.toNat_append_one (bs : Bytes) (b : UInt8) :
    Bytes.toNat (bs ++ [b]) = Bytes.toNat bs * 256 + b.toNat := by
  simp [Bytes.toNat]

theorem Bytes.toNat_ofNat {width n : Nat} (h : n < Nat.pow 256 width) :
    Bytes.toNat (Bytes.ofNat width n) = n := by
  induction width generalizing n with
  | zero =>
    have hn : n < 1 := h
    obtain rfl : n = 0 := by omega
    rfl
  | succ width ih =>
    have hn : n / 256 < Nat.pow 256 width := by
      rw [Nat.div_lt_iff_lt_mul (by decide)]
      exact h
    rw [Bytes.ofNat, Bytes.toNat_append_one, ih hn, UInt8.toNat_ofNat']
    exact Nat.div_add_mod' n 256

theorem Bytes.toNat_lt {bs : Bytes} {width : Nat} (h : bs.length = width) :
    Bytes.toNat bs < Nat.pow 256 width := by
  subst h
  induction bs using List.reverseRecOn with
  | nil => exact Nat.one_pos
  | append_singleton bs b ih =>
    have hb := b.toNat_lt
    have power : Nat.pow 256 (bs ++ [b]).length = Nat.pow 256 bs.length * 256 := by
      rw [List.length_append]
      rfl
    rw [toNat_append_one, power]
    omega

theorem Bytes.ofNat_toNat {bs : Bytes} {width : Nat} (h : bs.length = width) :
    Bytes.ofNat width (Bytes.toNat bs) = bs := by
  subst h
  induction bs using List.reverseRecOn with
  | nil => rfl
  | append_singleton bs b ih =>
    have hb := b.toNat_lt
    have front : (Bytes.toNat bs * 256 + b.toNat) / 256 = Bytes.toNat bs := by omega
    have last : UInt8.ofNat (Bytes.toNat bs * 256 + b.toNat) = b := by
      apply UInt8.toNat_inj.1
      rw [UInt8.toNat_ofNat']
      omega
    rw [toNat_append_one, List.length_append, List.length_singleton, Bytes.ofNat, front, last, ih]

namespace Hex

theorem encode_injective {a b : Bytes} (h : encode a = encode b) : a = b := by
  have ha := decode_encode a
  rw [h, decode_encode] at ha
  exact (Option.some.inj ha).symm

theorem val_ofHexDigit {n : Nat} (h : n < 16) :
    (CodePoint.ofHexDigit n).val = if n < 10 then 48 + n else 87 + n := by
  have digits : ∀ n : Fin 16, (CodePoint.ofHexDigit n).val =
      if n.val < 10 then 48 + n.val else 87 + n.val := by decide
  exact digits ⟨n, h⟩

theorem val_of_mem_encode {bs : Bytes} {c : CodePoint} (h : c ∈ encode bs) :
    48 ≤ c.val ∧ c.val ≤ 57 ∨ 97 ≤ c.val ∧ c.val ≤ 102 := by
  obtain ⟨b, -, hc⟩ := List.mem_flatMap.1 h
  have hb := b.toNat_lt
  obtain ⟨n, small, rfl⟩ : ∃ n < 16, c = CodePoint.ofHexDigit n := by
    simp only [List.mem_cons, List.not_mem_nil, or_false] at hc
    rcases hc with rfl | rfl
    · exact ⟨_, by omega, rfl⟩
    · exact ⟨_, by omega, rfl⟩
  rw [val_ofHexDigit small]
  split
  · omega
  · omega

end Hex

namespace Sha256

def Collision (a b : Bytes) : Prop :=
  a ≠ b ∧ digest a = digest b

theorem digest_eq_of_hex_eq {a b : Bytes} (h : hex a = hex b) : digest a = digest b :=
  Hex.encode_injective h

theorem eq_or_collision {a b : Bytes} (h : hex a = hex b) : a = b ∨ Collision a b := by
  by_cases hab : a = b
  · exact .inl hab
  · exact .inr ⟨hab, digest_eq_of_hex_eq h⟩

theorem isAscii_hex (message : Bytes) : ∀ c ∈ hex message, c.val < 0x80 := by
  intro c hc
  have := Hex.val_of_mem_encode hc
  omega

theorem isScalar_hex (message : Bytes) : (hex message).isScalar = true :=
  Text.isScalar_of_ascii (isAscii_hex message)

theorem lowLine_notMem_hex (message : Bytes) : CodePoint.ofChar '_' ∉ hex message := by
  intro h
  have := Hex.val_of_mem_encode h
  rw [CodePoint.val_ofChar] at this
  exact absurd this (by decide)

end Sha256

end ShardVault
