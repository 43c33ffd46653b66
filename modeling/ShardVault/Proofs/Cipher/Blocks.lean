import ShardVault.Cipher.SealedBlock
import ShardVault.Proofs.Bytes.Written
import ShardVault.Proofs.Result

namespace ShardVault.SealedBlock

variable {offset size : Nat} {fault truncated : BlockFault} {bs : Bytes}

theorem takeSized_append (offset size : Nat) (fault : BlockFault) {own : Bytes}
    (h : own.length < Nat.pow 256 4) (rest : Bytes) :
    takeSized offset size fault (Bytes.ofNat 4 own.length ++ (own ++ rest)) = .ok (own, rest) := by
  have hl := Bytes.length_ofNat 4 own.length
  have short : ¬ (Bytes.ofNat 4 own.length ++ (own ++ rest)).length < 4 := by
    rw [List.length_append, hl]
    omega
  rw [takeSized, if_neg short, List.take_left' hl, List.drop_left' hl, Bytes.toNat_ofNat h]
  simp

theorem decode_encode {block : SealedBlock} (hn : block.nonce.length < Nat.pow 256 4)
    (ht : block.tag.length < Nat.pow 256 4) : decode block.encode = .ok block := by
  rw [decode, encode]
  simp only [List.append_assoc, takeSized_append _ _ _ hn, takeSized_append _ _ _ ht, ok_bind]

theorem length_encode (block : SealedBlock) :
    block.encode.length = 8 + block.nonce.length + block.tag.length + block.ciphertext.length := by
  simp only [encode, List.length_append, Bytes.length_ofNat]
  omega

theorem takeSized_eq_ok {offset size : Nat} {fault : BlockFault} {bs own rest : Bytes}
    (h : takeSized offset size fault bs = .ok (own, rest)) :
    own.length < Nat.pow 256 4 ∧ Bytes.ofNat 4 own.length ++ (own ++ rest) = bs := by
  rw [takeSized] at h
  split at h
  · cases h
  next long =>
  simp only at h
  split at h
  · cases h
  next enough =>
  obtain ⟨rfl, rfl⟩ := Prod.mk.inj (Except.ok.inj h)
  have four : (bs.take 4).length = 4 := List.length_take_of_le (Nat.not_lt.1 long)
  have count : ((bs.drop 4).take (Bytes.toNat (bs.take 4))).length = Bytes.toNat (bs.take 4) :=
    List.length_take_of_le (Nat.not_lt.1 enough)
  rw [count, Bytes.ofNat_toNat four, List.take_append_drop, List.take_append_drop]
  exact ⟨Bytes.toNat_lt four, rfl⟩

theorem encode_of_decode {bs : Bytes} {block : SealedBlock} (h : decode bs = .ok block) :
    block.nonce.length < Nat.pow 256 4 ∧ block.tag.length < Nat.pow 256 4 ∧ block.encode = bs := by
  obtain ⟨⟨nonce, afterNonce⟩, hn, h⟩ := bind_eq_ok.1 h
  obtain ⟨⟨tag, rest⟩, ht, h⟩ := bind_eq_ok.1 h
  obtain rfl := Except.ok.inj h
  obtain ⟨shortNonce, rfl⟩ := takeSized_eq_ok hn
  obtain ⟨shortTag, rfl⟩ := takeSized_eq_ok ht
  exact ⟨shortNonce, shortTag, by simp only [encode, List.append_assoc]⟩

def nonceSize (bs : Bytes) : Nat :=
  Bytes.toNat (bs.take 4)

def tagSize (bs : Bytes) : Nat :=
  Bytes.toNat ((bs.drop (4 + nonceSize bs)).take 4)

/-- What is wrong with bytes that are no block: one of the two lengths is not whole, or it runs over
the end. -/
inductive Misframed (bs : Bytes) : BlockFault → Prop where
  | nonceLength (h : bs.length < 4) : Misframed bs (.shortLength 0 bs.length)
  | nonce (whole : 4 ≤ bs.length) (h : bs.length < 4 + nonceSize bs) : Misframed bs .truncatedNonce
  | tagLength (whole : 4 ≤ bs.length) (before : 4 + nonceSize bs ≤ bs.length)
      (h : bs.length < 4 + nonceSize bs + 4) :
      Misframed bs (.shortLength (4 + nonceSize bs) bs.length)
  | tag (whole : 4 ≤ bs.length) (before : 4 + nonceSize bs + 4 ≤ bs.length)
      (h : bs.length < 4 + nonceSize bs + 4 + tagSize bs) : Misframed bs .truncatedTag

theorem takeSized_of_le (whole : 4 ≤ bs.length) (h : 4 + Bytes.toNat (bs.take 4) ≤ bs.length) :
    takeSized offset size truncated bs =
      .ok ((bs.drop 4).take (Bytes.toNat (bs.take 4)), bs.drop (4 + Bytes.toNat (bs.take 4))) := by
  have enough : ¬ (bs.drop 4).length < Bytes.toNat (bs.take 4) := by
    rw [List.length_drop]
    omega
  rw [takeSized, if_neg (Nat.not_lt.2 whole)]
  simp only [if_neg enough, List.drop_drop]

theorem takeSized_eq_error_iff : takeSized offset size truncated bs = .error fault ↔
    bs.length < 4 ∧ fault = .shortLength offset size ∨
      4 ≤ bs.length ∧ bs.length < 4 + Bytes.toNat (bs.take 4) ∧ fault = truncated := by
  rcases Nat.lt_or_ge bs.length 4 with short | whole
  · rw [takeSized, if_pos short]
    simp only [short, Nat.not_le.2 short, true_and, false_and, or_false, Except.error.injEq, eq_comm]
  rcases Nat.lt_or_ge bs.length (4 + Bytes.toNat (bs.take 4)) with past | fits
  · have few : (bs.drop 4).length < Bytes.toNat (bs.take 4) := by
      rw [List.length_drop]
      omega
    rw [takeSized, if_neg (Nat.not_lt.2 whole)]
    simp only [if_pos few, past, whole, Nat.not_lt.2 whole, true_and, false_and, false_or,
      Except.error.injEq, eq_comm]
  · rw [takeSized_of_le whole fits]
    refine iff_of_false nofun ?_
    rintro (⟨short, -⟩ | ⟨-, past, -⟩)
    · omega
    · omega

theorem decode_eq_error_of_nonce (whole : 4 ≤ bs.length) (before : 4 + nonceSize bs ≤ bs.length) :
    decode bs = .error fault ↔ takeSized (4 + nonceSize bs) bs.length .truncatedTag
      (bs.drop (4 + nonceSize bs)) = .error fault := by
  have first : takeSized 0 bs.length .truncatedNonce bs =
      .ok ((bs.drop 4).take (nonceSize bs), bs.drop (4 + nonceSize bs)) :=
    takeSized_of_le whole before
  have nonce : ((bs.drop 4).take (nonceSize bs)).length = nonceSize bs := by
    apply List.length_take_of_le
    rw [List.length_drop]
    exact Nat.le_sub_of_add_le' before
  rw [decode, first, ok_bind]
  simp only [nonce]
  cases takeSized (4 + nonceSize bs) bs.length .truncatedTag (bs.drop (4 + nonceSize bs)) with
  | error other => simp only [error_bind, Except.error.injEq]
  | ok parts => exact iff_of_false nofun nofun

theorem decode_eq_error_iff : decode bs = .error fault ↔ Misframed bs fault := by
  constructor
  · intro h
    rcases Nat.lt_or_ge bs.length 4 with short | whole
    · rw [decode, takeSized_eq_error_iff.2 (.inl ⟨short, rfl⟩), error_bind] at h
      obtain rfl := Except.error.inj h
      exact .nonceLength short
    rcases Nat.lt_or_ge bs.length (4 + nonceSize bs) with past | before
    · rw [decode, takeSized_eq_error_iff.2 (.inr ⟨whole, past, rfl⟩), error_bind] at h
      obtain rfl := Except.error.inj h
      exact .nonce whole past
    rw [decode_eq_error_of_nonce whole before, takeSized_eq_error_iff, List.length_drop] at h
    rcases h with ⟨short, rfl⟩ | ⟨enough, past, rfl⟩
    · exact .tagLength whole before (by omega)
    · refine .tag whole (by omega) ?_
      rw [tagSize]
      omega
  · intro h
    cases h with
    | nonceLength short =>
      rw [decode, takeSized_eq_error_iff.2 (.inl ⟨short, rfl⟩), error_bind]
    | nonce whole past =>
      rw [decode, takeSized_eq_error_iff.2 (.inr ⟨whole, past, rfl⟩), error_bind]
    | tagLength whole before short =>
      rw [decode_eq_error_of_nonce whole before, takeSized_eq_error_iff, List.length_drop]
      exact .inl ⟨by omega, rfl⟩
    | tag whole before past =>
      rw [decode_eq_error_of_nonce whole (by omega), takeSized_eq_error_iff, List.length_drop]
      rw [tagSize] at past
      exact .inr ⟨by omega, by omega, rfl⟩

theorem decode_eq_ok_iff {block : SealedBlock} : decode bs = .ok block ↔
    block.nonce.length < 0x100000000 ∧ block.tag.length < 0x100000000 ∧ block.encode = bs := by
  rw [show 0x100000000 = Nat.pow 256 4 from rfl]
  constructor
  · exact encode_of_decode
  · rintro ⟨nonce, tag, rfl⟩
    exact decode_encode nonce tag

/-- Blocks whose nonce and tag fit their lengths, and the bytes that are accepted, determine each
other. All other bytes are refused as a broken container, for the first length that is not whole or
runs over the end. -/
theorem decode_outcome (bs : Bytes) :
    (∀ block, decode bs = .ok block ↔
      block.nonce.length < 0x100000000 ∧ block.tag.length < 0x100000000 ∧ block.encode = bs) ∧
    ∀ failure, (decode bs).mapError (fun fault ↦ Failure.corruptContainer (.block fault)) =
        .error failure ↔
      ∃ fault, Misframed bs fault ∧ failure = .corruptContainer (.block fault) := by
  refine ⟨fun block ↦ decode_eq_ok_iff, fun failure ↦ ?_⟩
  constructor
  · intro refused
    cases read : decode bs with
    | ok block =>
      rw [read] at refused
      cases refused
    | error fault =>
      rw [read] at refused
      exact ⟨fault, decode_eq_error_iff.1 read, (Except.error.inj refused).symm⟩
  · rintro ⟨fault, wrong, rfl⟩
    rw [decode_eq_error_iff.2 wrong]
    rfl

end ShardVault.SealedBlock
