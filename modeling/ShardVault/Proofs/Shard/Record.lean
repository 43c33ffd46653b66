import ShardVault.Proofs.Shard.RoundTrip

namespace ShardVault

namespace Shard

theorem asciiBytes_of_asciiText? {t : Text} {bs : Bytes} (h : asciiText? bs = some t) :
    asciiBytes t = .ok bs := by
  unfold asciiText? at h
  split at h
  · next low =>
    obtain rfl := Option.some.inj h
    simp only [List.all_eq_true, decide_eq_true_iff, UInt8.lt_iff_toNat_lt] at low
    have val : ∀ b : UInt8, (CodePoint.ofNat b.toNat).val = b.toNat := fun b ↦
      Nat.mod_eq_of_lt (Nat.lt_trans b.toNat_lt (by decide))
    refine asciiBytes_eq_ok_iff.2 ⟨?_, ?_⟩
    · intro c hc
      obtain ⟨b, hb, rfl⟩ := List.mem_map.1 hc
      exact (val b).symm ▸ low b hb
    · rw [List.map_map]
      refine (List.map_congr_left fun b _ ↦ ?_).trans (List.map_id bs)
      rw [Function.comp_apply, val, UInt8.ofNat_toNat, id_eq]
  · cases h

theorem recordable_of_encode {s : Shard} {bs : Bytes} (h : s.encode = .ok bs)
    (hh : s.hash.length = hashSize) : s.Recordable := by
  obtain ⟨scalar, nonneg, small, short, hashBytes, hhash, -⟩ := encode_eq_ok_iff.1 h
  exact ⟨nonneg, small, scalar, by omega, hh, (asciiBytes_eq_ok_iff.1 hhash).1⟩

theorem ofBody_eq_ok {flags : UInt8} {index idSize : Nat} {body : Bytes} {s : Shard}
    (h : ofBody flags index idSize body = .ok s) :
    s.index = index ∧ s.isParity = (flags == 1) ∧ s.fileId.isScalar = true ∧
      (Utf8.encodeAll s.fileId).length = idSize ∧ s.hash.length = hashSize ∧
        ∃ hashBytes, asciiBytes s.hash = .ok hashBytes ∧
          Utf8.encodeAll s.fileId ++ (hashBytes ++ s.data) = body := by
  unfold ofBody at h
  simp only at h
  split at h
  · cases h
  next long =>
  split at h
  · next fileId hash hid hhash =>
    obtain rfl := Except.ok.inj h
    have hash_long : ((body.drop idSize).take hashSize).length = hashSize :=
      Nat.le_antisymm (List.length_take_le ..) (Nat.not_lt.1 long)
    have id_long : (body.take idSize).length = idSize := by
      simp only [List.length_take, List.length_drop, hashSize] at hash_long ⊢
      omega
    have bytes := asciiBytes_of_asciiText? hhash
    refine ⟨rfl, rfl, Utf8.isScalar_of_decode hid, ?_, ?_, _, bytes, ?_⟩
    · rw [Utf8.encodeAll_of_decode hid, id_long]
    · exact (asciiText?_of_asciiBytes bytes).2.symm.trans hash_long
    · rw [Utf8.encodeAll_of_decode hid, ← List.drop_drop, List.take_append_drop,
        List.take_append_drop]
  · cases h

theorem head_append_body (bs : Bytes) :
    bs.take 4 ++ ((bs.drop 4).take 2 ++ ((bs.drop 6).take 1 ++ ((bs.drop 7).take 4 ++
      ((bs.drop 11).take 2 ++ bs.drop headSize)))) = bs := by
  have step (start size : Nat) :
      (bs.drop start).take size ++ bs.drop (start + size) = bs.drop start := by
    rw [← List.drop_drop, List.take_append_drop]
  rw [headSize, step 11 2, step 7 4, step 6 1, step 4 2, List.take_append_drop]

theorem flags_eq {flags : UInt8} (h : ¬ 1 < flags) :
    (if (flags == 1) = true then 1 else 0 : UInt8) = flags := by
  have low : flags.toNat ≤ 1 := UInt8.le_iff_toNat_le.1 (UInt8.not_lt.1 h)
  have cases : flags = 0 ∨ flags = 1 := by
    rcases Nat.le_one_iff_eq_zero_or_eq_one.1 low with zero | one
    · exact .inl (UInt8.toNat_inj.1 zero)
    · exact .inr (UInt8.toNat_inj.1 one)
  rcases cases with rfl | rfl
  · rfl
  · rfl

theorem encode_of_decode {bs : Bytes} {s : Shard} (h : decode bs = .ok s) :
    s.hash.length = hashSize ∧ s.encode = .ok bs := by
  unfold decode at h
  split at h
  · cases h
  next long =>
  split at h
  · cases h
  next letters =>
  simp only at h
  split at h
  · cases h
  next version =>
  split at h
  · cases h
  next known =>
  obtain ⟨hindex, hparity, scalar, hidSize, hhash, hashBytes, bytes, hbody⟩ := ofBody_eq_ok h
  have size (start width : Nat) (within : start + width ≤ headSize) :
      ((bs.drop start).take width).length = width := by
    rw [List.length_take, List.length_drop]
    omega
  have index_lt := Bytes.toNat_lt (size 7 4 (by decide))
  have id_lt := Bytes.toNat_lt (size 11 2 (by decide))
  rw [show Nat.pow 256 4 = 0x100000000 from rfl] at index_lt
  rw [show Nat.pow 256 2 = 0x10000 from rfl] at id_lt
  have flag : (bs.drop 6).take 1 = [(bs.drop 6).headD 0] := by
    have one := size 6 1 (by decide)
    match bs.drop 6, one with
    | b :: rest, _ => rfl
  refine ⟨hhash, encode_eq_ok_iff.2 ⟨scalar, by omega, by omega, by omega, hashBytes, bytes, ?_⟩⟩
  have index : s.index.toNat = Bytes.toNat ((bs.drop 7).take 4) := by omega
  rw [hparity, flags_eq known, index, Bytes.ofNat_toNat (size 7 4 (by decide)), hidSize,
    Bytes.ofNat_toNat (size 11 2 (by decide)), ← Decidable.not_not.1 version,
    Bytes.ofNat_toNat (size 4 2 (by decide)), ← Decidable.not_not.1 letters, ← flag]
  simp only [List.append_assoc, hbody]
  exact head_append_body bs

theorem decode_eq_ok_iff {bs : Bytes} {s : Shard} :
    decode bs = .ok s ↔ s.hash.length = hashSize ∧ s.encode = .ok bs :=
  ⟨encode_of_decode, fun h ↦ decode_of_encode h.1 h.2⟩

/-- Recordable shards and accepted records determine each other. -/
theorem one_record :
    (∀ s : Shard, s.Recordable ↔ ∃ bs, s.encode = .ok bs ∧ decode bs = .ok s) ∧
      (∀ bs : Bytes,
        (∃ s : Shard, s.Recordable ∧ decode bs = .ok s ∧ s.encode = .ok bs) ∨
          ∃ failure, (decode bs).mapError Failure.corruptShard = .error failure ∧
            failure.family? = some .corruptShard) ∧
        ∀ (bs other : Bytes) (s t : Shard), decode bs = .ok s → decode other = .ok t →
          bs ≠ other → s ≠ t := by
  refine ⟨fun s ↦ ⟨fun h ↦ ?_, ?_⟩, fun bs ↦ ?_, ?_⟩
  · obtain ⟨bs, record⟩ := h.exists_encode
    exact ⟨bs, record, decode_eq_ok_iff.2 ⟨h.length_hash, record⟩⟩
  · rintro ⟨bs, record, read⟩
    exact recordable_of_encode record (decode_eq_ok_iff.1 read).1
  · cases read : decode bs with
    | ok s =>
      obtain ⟨length, record⟩ := decode_eq_ok_iff.1 read
      exact .inl ⟨s, recordable_of_encode record length, rfl, record⟩
    | error fault => exact .inr ⟨.corruptShard fault, rfl, rfl⟩
  · rintro bs other s _ first second different rfl
    have same := (encode_of_decode first).2.symm.trans (encode_of_decode second).2
    exact different (Except.ok.inj same)

/-- A parity shard of some bytes, for a file whose id takes more than one byte for a letter. -/
theorem one_record_parity : (ofData "größe_7" 300 true [7, 0, 255]).Recordable ∧
    ∃ bs, (ofData "größe_7" 300 true [7, 0, 255]).encode = .ok bs ∧
      decode bs = .ok (ofData "größe_7" 300 true [7, 0, 255]) :=
  have fits := @recordable_ofData "größe_7" (by decide) (by decide) 300 (by decide) true [7, 0, 255]
  ⟨fits, (one_record.1 _).1 fits⟩

end Shard

end ShardVault
