import ShardVault.Bytes.Basic
import ShardVault.Text.Basic

namespace ShardVault.Hex

def encode (bs : Bytes) : Text :=
  bs.flatMap fun b =>
    [CodePoint.ofHexDigit (b.toNat / 16), CodePoint.ofHexDigit (b.toNat % 16)]

/-- The bytes that pairs of digits spell; refuses an odd length and any other code point. -/
def decodeOnto (done : Bytes) : Text → Option Bytes
  | [] => some done.reverse
  | [_] => none
  | hi :: lo :: rest =>
    match hi.hexValue?, lo.hexValue? with
    | some h, some l => decodeOnto (UInt8.ofNat (h * 16 + l) :: done) rest
    | _, _ => none

/-- The bytes that pairs of digits spell; refuses an odd length and any other code point. -/
def decode (t : Text) : Option Bytes :=
  decodeOnto [] t

theorem hexValue?_ofHexDigit : ∀ n : Fin 16, (CodePoint.ofHexDigit n).hexValue? = some n.val := by
  decide

theorem decodeOnto_encode (bs done : Bytes) :
    decodeOnto done (encode bs) = some (done.reverse ++ bs) := by
  induction bs generalizing done with
  | nil => simp [encode, decodeOnto]
  | cons b bs ih =>
    have hb := b.toNat_lt
    have h1 := hexValue?_ofHexDigit ⟨b.toNat / 16, by omega⟩
    have h2 := hexValue?_ofHexDigit ⟨b.toNat % 16, by omega⟩
    have h3 : UInt8.ofNat (b.toNat / 16 * 16 + b.toNat % 16) = b := by
      rw [Nat.div_add_mod' b.toNat 16]; exact UInt8.ofNat_toNat
    have := ih (b :: done)
    simp only [encode, List.flatMap_cons, List.cons_append, List.nil_append, decodeOnto] at this ⊢
    simp only [h1, h2, h3, this]
    simp

theorem decode_encode (bs : Bytes) : decode (encode bs) = some bs :=
  decodeOnto_encode bs []

@[simp] theorem length_encode (bs : Bytes) : (encode bs).length = 2 * bs.length := by
  induction bs with
  | nil => rfl
  | cons b bs ih => simp [encode] at ih ⊢; omega

end ShardVault.Hex
