import ShardVault.Proofs.Bytes.Written
import ShardVault.Proofs.Result
import ShardVault.Shard.Basic

namespace ShardVault

namespace Shard

structure Recordable (s : Shard) : Prop where
  index_nonneg : 0 ≤ s.index
  index_lt : s.index < 0x100000000
  isScalar : s.fileId.isScalar = true
  length_fileId : (Utf8.encodeAll s.fileId).length ≤ 0xFFFF
  length_hash : s.hash.length = hashSize
  isAscii : ∀ c ∈ s.hash, c.val < 128

theorem asciiBytes_eq_ok_iff {t : Text} {bs : Bytes} :
    asciiBytes t = .ok bs ↔ (∀ c ∈ t, c.val < 128) ∧ t.map (fun c ↦ UInt8.ofNat c.val) = bs := by
  have low : t.all (·.val < 128) = true ↔ ∀ c ∈ t, c.val < 128 := by simp
  unfold asciiBytes
  split
  · next ascii => rw [Except.ok.injEq, and_iff_right (low.1 ascii)]
  · next other => exact ⟨nofun, fun h ↦ absurd (low.2 h.1) other⟩

theorem asciiText?_of_asciiBytes {t : Text} {bs : Bytes} (h : asciiBytes t = .ok bs) :
    asciiText? bs = some t ∧ bs.length = t.length := by
  obtain ⟨ascii, rfl⟩ := asciiBytes_eq_ok_iff.1 h
  have byte : ∀ c ∈ t, (UInt8.ofNat c.val).toNat = c.val := fun c hc ↦
    Utf8.toNat_byte (Nat.lt_trans (ascii c hc) (by decide))
  have low : (t.map fun c ↦ UInt8.ofNat c.val).all (· < 128) = true := by
    simp only [List.all_map, List.all_eq_true, Function.comp_apply, decide_eq_true_iff,
      UInt8.lt_iff_toNat_lt]
    exact fun c hc ↦ (byte c hc).symm ▸ ascii c hc
  refine ⟨?_, List.length_map _⟩
  rw [asciiText?, if_pos low, List.map_map]
  congr 1
  refine (List.map_congr_left ?_).trans (List.map_id t)
  intro c hc
  rw [Function.comp_apply, byte c hc]
  exact Fin.ext (Nat.mod_eq_of_lt c.isLt)

theorem ofBody_append {flags : UInt8} {index : Nat} {idBytes hashBytes data : Bytes}
    {fileId hash : Text} (hl : hashBytes.length = hashSize)
    (hid : Utf8.decode idBytes = some fileId) (hhash : asciiText? hashBytes = some hash) :
    ofBody flags index idBytes.length (idBytes ++ (hashBytes ++ data)) =
      .ok ⟨index, data, hash, flags == 1, fileId⟩ := by
  have hd : (idBytes ++ (hashBytes ++ data)).drop (idBytes.length + hashSize) = data := by
    rw [← List.drop_drop, List.drop_left' rfl, List.drop_left' hl]
  simp only [ofBody, List.take_left' rfl, List.drop_left' rfl, List.take_left' hl, hl, hid, hhash,
    hd, Nat.lt_irrefl, if_false]

theorem decode_eq_ofBody {bs body : Bytes} {flag : UInt8} {index idSize : Nat}
    (hi : index < Nat.pow 256 4) (hs : idSize < Nat.pow 256 2) (hf : ¬ 1 < flag)
    (h : bs = magic ++ (Bytes.ofNat 2 formVersion ++ ([flag] ++ (Bytes.ofNat 4 index ++
      (Bytes.ofNat 2 idSize ++ body))))) :
    decode bs = ofBody flag index idSize body := by
  have lv : (Bytes.ofNat 2 formVersion).length = 2 := Bytes.length_ofNat _ _
  have li : (Bytes.ofNat 4 index).length = 4 := Bytes.length_ofNat _ _
  have ls : (Bytes.ofNat 2 idSize).length = 2 := Bytes.length_ofNat _ _
  have hversion : Bytes.toNat (Bytes.ofNat 2 formVersion) = formVersion :=
    Bytes.toNat_ofNat (by decide)
  have long : ¬ bs.length < headSize := by
    simp only [h, List.length_append, lv, li, ls, List.length_singleton, magic, headSize]
    rw [show (Utf8.encodeAll "LDSH").length = 4 from rfl]
    omega
  have t4 : bs.take 4 = magic := h ▸ List.take_left' rfl
  have d4 : bs.drop 4 = Bytes.ofNat 2 formVersion ++ ([flag] ++ (Bytes.ofNat 4 index ++
      (Bytes.ofNat 2 idSize ++ body))) := h ▸ List.drop_left' rfl
  have d6 : bs.drop (4 + 2) = [flag] ++ (Bytes.ofNat 4 index ++ (Bytes.ofNat 2 idSize ++ body)) :=
    by rw [← List.drop_drop, d4, List.drop_left' lv]
  have d7 : bs.drop (4 + 2 + 1) = Bytes.ofNat 4 index ++ (Bytes.ofNat 2 idSize ++ body) := by
    rw [← List.drop_drop, d6]
    rfl
  have d11 : bs.drop (4 + 2 + 1 + 4) = Bytes.ofNat 2 idSize ++ body := by
    rw [← List.drop_drop, d7, List.drop_left' li]
  have d13 : bs.drop headSize = body := by
    rw [show headSize = 4 + 2 + 1 + 4 + 2 from rfl, ← List.drop_drop, d11, List.drop_left' ls]
  simp only [decode, long, if_false, t4, ne_eq, not_true_eq_false, d4, List.take_left' lv,
    hversion, d6, List.cons_append, List.headD_cons, hf, d7, List.take_left' li,
    Bytes.toNat_ofNat hi, d11, List.take_left' ls, Bytes.toNat_ofNat hs, d13]

theorem encode_eq_ok_iff {s : Shard} {bs : Bytes} :
    s.encode = .ok bs ↔ s.fileId.isScalar = true ∧ 0 ≤ s.index ∧ s.index < 0x100000000 ∧
      (Utf8.encodeAll s.fileId).length < 0x10000 ∧ ∃ hashBytes, asciiBytes s.hash = .ok hashBytes ∧
        magic ++ Bytes.ofNat 2 formVersion ++ [if s.isParity then 1 else 0] ++
          Bytes.ofNat 4 s.index.toNat ++ Bytes.ofNat 2 (Utf8.encodeAll s.fileId).length ++
            Utf8.encodeAll s.fileId ++ hashBytes ++ s.data = bs := by
  constructor
  · intro h
    obtain ⟨idBytes, hid, h⟩ := bind_eq_ok.1 h
    obtain ⟨scalar, rfl⟩ := Text.encode_eq_ok_iff.1 hid
    split at h
    · cases h
    next fits =>
    obtain ⟨hashBytes, hhash, h⟩ := bind_eq_ok.1 h
    exact ⟨scalar, by omega, by omega, by omega, hashBytes, hhash, Except.ok.inj h⟩
  · rintro ⟨scalar, nonneg, small, short, hashBytes, hhash, rfl⟩
    refine bind_eq_ok.2 ⟨_, Text.encode_eq_ok_iff.2 ⟨scalar, rfl⟩, ?_⟩
    rw [if_neg (by omega), hhash, ok_bind]

theorem Recordable.exists_encode {s : Shard} (h : s.Recordable) : ∃ bs, s.encode = .ok bs := by
  have short := h.length_fileId
  exact ⟨_, encode_eq_ok_iff.2 ⟨h.isScalar, h.index_nonneg, h.index_lt, by omega, _,
    asciiBytes_eq_ok_iff.2 ⟨h.isAscii, rfl⟩, rfl⟩⟩

theorem decode_of_encode {s : Shard} (hh : s.hash.length = hashSize) {bs : Bytes}
    (h : s.encode = .ok bs) : decode bs = .ok s := by
  obtain ⟨scalar, nonneg, small, short, hashBytes, hhash, record⟩ := encode_eq_ok_iff.1 h
  obtain ⟨htext, hlen⟩ := asciiText?_of_asciiBytes hhash
  have hi : s.index.toNat < Nat.pow 256 4 := by
    rw [show Nat.pow 256 4 = 0x100000000 from rfl]
    omega
  have hf : ¬ 1 < (if s.isParity then 1 else 0 : UInt8) ∧
      ((if s.isParity then 1 else 0 : UInt8) == 1) = s.isParity := by
    cases s.isParity <;> decide
  have hindex : (s.index.toNat : Int) = s.index := by omega
  rw [@decode_eq_ofBody _ (Utf8.encodeAll s.fileId ++ (hashBytes ++ s.data)) _ _ _ hi short hf.1
    (record.symm.trans (by simp only [List.append_assoc])),
    ofBody_append (hlen.trans hh) (Utf8.decode_encodeAll scalar) htext, hf.2, hindex]

theorem decode_of_encode_ofData {fileId : Text} {index : Int} {isParity : Bool} {data bs : Bytes}
    (h : (ofData fileId index isParity data).encode = .ok bs) :
    decode bs = .ok (ofData fileId index isParity data) :=
  decode_of_encode (Sha256.length_hex data) h

theorem recordable_ofData {fileId : Text} (hid : fileId.isScalar = true)
    (hl : (Utf8.encodeAll fileId).length < 0x10000) {index : Nat} (hi : index < 0x100000000)
    (isParity : Bool) (data : Bytes) : (ofData fileId index isParity data).Recordable where
  index_nonneg := Int.natCast_nonneg index
  index_lt := Int.ofNat_lt.2 hi
  isScalar := hid
  length_fileId := Nat.le_of_lt_succ hl
  length_hash := Sha256.length_hex data
  isAscii := Sha256.isAscii_hex data

theorem exists_encode_ofData {fileId : Text} (hid : fileId.isScalar = true)
    (hl : (Utf8.encodeAll fileId).length < 0x10000) {index : Nat} (hi : index < 0x100000000)
    (isParity : Bool) (data : Bytes) :
    ∃ bs, (ofData fileId index isParity data).encode = .ok bs :=
  (recordable_ofData hid hl hi isParity data).exists_encode

theorem verify_ofData (fileId : Text) (index : Int) (isParity : Bool) (data : Bytes) :
    (ofData fileId index isParity data).verify = true := by
  simp [verify, ofData]

end Shard

end ShardVault
