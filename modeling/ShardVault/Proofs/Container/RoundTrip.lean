import ShardVault.Container.Codec
import ShardVault.Container.Decrypt
import ShardVault.Proofs.Cipher.Blocks
import ShardVault.Proofs.Json.Fields
import ShardVault.Proofs.Json.Plain
import ShardVault.Proofs.Time.RoundTrip

namespace ShardVault

namespace Container

/-- What a container needs to be read back: chunks at their places, sizes in range, and texts
without pairs of surrogates. -/
structure Sound (c : Container) : Prop where
  placed : firstMoved? 0 c.chunks = none
  plainSize : 0 ≤ c.plainSize
  chunkSize : 0 < c.chunkSize
  nonce : ∀ chunk ∈ c.chunks, chunk.block.nonce.length < Nat.pow 256 4
  tag : ∀ chunk ∈ c.chunks, chunk.block.tag.length < Nat.pow 256 4
  hash : ∀ chunk ∈ c.chunks, chunk.hash.Unpaired
  fileId : c.fileId.Unpaired
  merkleRoot : c.merkleRoot.Unpaired
  plainHash : c.plainHash.Unpaired

def readBack (c : Container) : Container :=
  { c with createdAt := c.createdAt.readBack }

theorem splitAt?_append (own rest : Bytes) :
    splitAt? own.length (own ++ rest) = some (own, rest) := by
  simp [splitAt?]

theorem splitAt?_eq_none {count : Nat} {bs : Bytes} (h : bs.length < count) :
    splitAt? count bs = none := by
  have missing : min count bs.length < count := by omega
  simpa [splitAt?] using missing

def entryFields (chunk : Chunk) : List (Text × Json) :=
  [("index", .int chunk.index), ("originalHash", .text chunk.hash),
    ("length", .int chunk.block.encode.length)]

theorem readChunk_entry {chunk : Chunk} {position : Nat} (hp : chunk.index = position)
    (hn : chunk.block.nonce.length < Nat.pow 256 4) (ht : chunk.block.tag.length < Nat.pow 256 4)
    (rest : Bytes) :
    readChunk position (Json.arranged Json.compact (entry chunk)) (chunk.block.encode ++ rest) =
      .ok (chunk, rest) := by
  have hd : ((entryFields chunk).map (·.1)).Nodup := by
    simp only [entryFields, List.map_cons, List.map_nil]
    decide
  have index : Json.requireInt (Json.readFieldsOf Json.compact (entryFields chunk)) "index" =
      .ok chunk.index := Json.requireInt_readFieldsOf hd rfl
  have length : Json.requireInt (Json.readFieldsOf Json.compact (entryFields chunk)) "length" =
      .ok chunk.block.encode.length := Json.requireInt_readFieldsOf hd rfl
  have hash : Json.requireText (Json.readFieldsOf Json.compact (entryFields chunk))
      "originalHash" = .ok chunk.hash := Json.requireText_readFieldsOf hd rfl
  have harr : Json.arranged Json.compact (entry chunk) =
      .object (Json.readFieldsOf Json.compact (entryFields chunk)) := Json.arranged_object _ _
  rw [harr, readChunk]
  simp only [index, length, hash, ofField, mapError_ok, ok_bind, hp, ne_eq, not_true_eq_false,
    if_false, splitAt?_append, SealedBlock.decode_encode hn ht]
  rw [← hp]

theorem readChunks_entries {chunks : List Chunk} {position : Nat}
    (hp : firstMoved? position chunks = none)
    (hn : ∀ chunk ∈ chunks, chunk.block.nonce.length < Nat.pow 256 4)
    (ht : ∀ chunk ∈ chunks, chunk.block.tag.length < Nat.pow 256 4) (done : List Chunk) :
    readChunks position done ((chunks.map entry).map (Json.arranged Json.compact))
      (chunks.flatMap (·.block.encode)) = .ok (done.reverse ++ chunks, []) := by
  induction chunks generalizing position done with
  | nil => simp [readChunks]
  | cons chunk chunks ih =>
    rw [firstMoved?] at hp
    split at hp
    · next hc =>
      have hread := readChunk_entry hc (hn chunk (by simp)) (ht chunk (by simp))
        (chunks.flatMap (·.block.encode))
      simp only [List.map_cons, List.flatMap_cons, readChunks, hread]
      rw [ih hp (fun x hx ↦ hn x (by simp [hx])) (fun x hx ↦ ht x (by simp [hx]))]
      simp
    · cases hp

def headerFields (c : Container) : List (Text × Json) :=
  [("fileId", .text c.fileId), ("merkleRoot", .text c.merkleRoot),
    ("originalHash", .text c.plainHash), ("originalSize", .int c.plainSize),
    ("chunkSize", .int c.chunkSize), ("createdAt", .text c.createdAt.shown),
    ("chunks", .list (c.chunks.map entry))]

theorem header_eq (c : Container) : c.header = .object c.headerFields := rfl

theorem nodup_headerFields (c : Container) : (c.headerFields.map (·.1)).Nodup := by
  simp only [headerFields, List.map_cons, List.map_nil]
  decide

theorem ofHeader_headerFields {c : Container} (hc : c.Sound) :
    ofHeader (Json.readFieldsOf Json.compact c.headerFields)
      (c.chunks.flatMap (·.block.encode)) = .ok c.readBack := by
  have hd := c.nodup_headerFields
  have textAt (key t : Text) (h : Entries.get? c.headerFields key = some (.text t)) :
      Json.requireText (Json.readFieldsOf Json.compact c.headerFields) key = .ok t :=
    Json.requireText_readFieldsOf hd h
  have intAt (key : Text) (n : Int) (h : Entries.get? c.headerFields key = some (.int n)) :
      Json.requireInt (Json.readFieldsOf Json.compact c.headerFields) key = .ok n :=
    Json.requireInt_readFieldsOf hd h
  have fileId := textAt "fileId" c.fileId rfl
  have merkleRoot := textAt "merkleRoot" c.merkleRoot rfl
  have plainHash := textAt "originalHash" c.plainHash rfl
  have plainSize := intAt "originalSize" c.plainSize rfl
  have chunkSize := intAt "chunkSize" c.chunkSize rfl
  have createdAt := textAt "createdAt" c.createdAt.shown rfl
  have table : Json.requireList (Json.readFieldsOf Json.compact c.headerFields) "chunks" =
      .ok ((c.chunks.map entry).map (Json.arranged Json.compact)) :=
    Json.requireList_readFieldsOf hd rfl
  have time : readTime c.createdAt.shown = .ok c.createdAt.readBack := by
    simp only [readTime, DateTime.ofText?_shown]
  have sizes : ¬ (c.plainSize < 0 ∨ c.chunkSize ≤ 0) := by
    have := hc.plainSize
    have := hc.chunkSize
    omega
  simp only [ofHeader, fileId, merkleRoot, plainHash, plainSize, chunkSize, createdAt, table, time,
    ofField, mapError_ok, ok_bind, sizes, if_false,
    readChunks_entries hc.placed hc.nonce hc.tag, List.isEmpty_nil, if_true, List.reverse_nil,
    List.nil_append]
  rfl

theorem readable_entry {chunk : Chunk} (h : chunk.hash.Unpaired)
    (hw : (entry chunk).isWritable = true) (depth : Nat) :
    Json.Readable true (depth + 1) (entry chunk) := by
  simp only [entry, Json.isWritable, Json.fieldsWritable, Bool.and_true, Bool.and_eq_true,
    decide_eq_true_iff] at hw
  refine .object _ (by simp only [List.map_cons, List.map_nil]; decide) ?_ ?_
  · simp only [List.forall_mem_cons, List.not_mem_nil, false_implies, implies_true, and_true]
    exact ⟨Json.legible_of_isScalar (by decide) _, Json.legible_of_isScalar (by decide) _,
      Json.legible_of_isScalar (by decide) _⟩
  · simp only [List.forall_mem_cons, List.not_mem_nil, false_implies, implies_true, and_true]
    exact ⟨.int _ hw.1, .text _ fun _ ↦ h, .int _ hw.2.2⟩

theorem readable_header {c : Container} (hc : c.Sound) (hw : c.header.isWritable = true) :
    Json.Readable true Json.nestingLimit c.header := by
  have legible {t : Text} (h : t.isScalar = true) := Json.legible_of_isScalar h true
  have shown := legible (DateTime.isScalar_shown c.createdAt)
  simp only [header, Json.isWritable, Json.fieldsWritable, Json.areWritable_iff, Bool.and_true,
    Bool.true_and, Bool.and_eq_true, decide_eq_true_iff, List.mem_map, forall_exists_index,
    and_imp, forall_apply_eq_imp_iff₂] at hw
  refine .object _ c.nodup_headerFields ?_ ?_
  · simp only [List.forall_mem_cons, List.not_mem_nil, false_implies, implies_true, and_true]
    exact ⟨legible (by decide), legible (by decide), legible (by decide), legible (by decide),
      legible (by decide), legible (by decide), legible (by decide)⟩
  · simp only [List.forall_mem_cons, List.not_mem_nil, false_implies, implies_true, and_true]
    refine ⟨.text _ fun _ ↦ hc.fileId, .text _ fun _ ↦ hc.merkleRoot, .text _ fun _ ↦ hc.plainHash,
      .int _ hw.1, .int _ hw.2.1, .text _ shown, .list _ ?_⟩
    intro item hi
    obtain ⟨chunk, hm, rfl⟩ := List.mem_map.1 hi
    exact readable_entry (hc.hash chunk hm) (hw.2.2 chunk hm) _

theorem readHeader_header {c : Container} (hc : c.Sound) {t : Text} {bs : Bytes}
    (ht : Json.encode Json.compact c.header = .ok t) (hb : t.encode = .ok bs) :
    readHeader bs = .ok (Json.readFieldsOf Json.compact c.headerFields) := by
  obtain ⟨hw, rfl⟩ := Json.encode_eq_ok_iff.1 ht
  obtain ⟨hs, rfl⟩ := Text.encode_eq_ok_iff.1 hb
  have hread := Json.ofText_write Json.compact_sound (readable_header hc hw)
  rw [header_eq, Json.arranged_object] at hread
  rw [readHeader, Utf8.decode_encodeAll hs, header_eq]
  simp only [hread]
  rfl

def preamble (size : Nat) : Bytes :=
  magic ++ Bytes.ofNat 2 formVersion ++ Bytes.ofNat 4 size

theorem length_preamble (size : Nat) : (preamble size).length = 10 := by
  simp only [preamble, List.length_append, Bytes.length_ofNat]
  rfl

theorem take_preamble {size count : Nat} (long : 10 ≤ count) (rest : Bytes) :
    (preamble size ++ rest).take count = preamble size ++ rest.take (count - 10) := by
  rw [List.take_append, length_preamble, List.take_of_length_le (by rwa [length_preamble])]

def headerBytes (c : Container) : Bytes :=
  Utf8.encodeAll (Json.write Json.compact c.header)

theorem Sound.encode_eq {c : Container} (hc : c.Sound) (hw : c.header.isWritable = true) :
    c.encode = if 0x100000000 ≤ c.headerBytes.length then .error .unpackable
      else .ok (preamble c.headerBytes.length ++
        (c.headerBytes ++ c.chunks.flatMap (·.block.encode))) := by
  have scalar : (Json.write Json.compact c.header).isScalar = true :=
    ((readable_header hc hw).isScalar_write_iff (by decide) (by decide)).2 (.inl rfl)
  have written : (Json.write Json.compact c.header).encode = .ok c.headerBytes :=
    Text.encode_eq_ok_iff.2 ⟨scalar, rfl⟩
  rw [encode, Json.encode_eq_ok_iff.2 ⟨hw, rfl⟩, ok_bind, written, ok_bind, preamble,
    List.append_assoc _ c.headerBytes]

theorem Sound.exists_encode_iff {c : Container} (hc : c.Sound) : (∃ bs, c.encode = .ok bs) ↔
    c.header.isWritable = true ∧ c.headerBytes.length < 0x100000000 := by
  constructor
  · rintro ⟨bs, h⟩
    obtain ⟨t, written, -⟩ := bind_eq_ok.1 h
    have writable := (Json.encode_eq_ok_iff.1 written).1
    rw [hc.encode_eq writable] at h
    split at h
    · cases h
    · next short => exact ⟨writable, Nat.not_le.1 short⟩
  · rintro ⟨writable, short⟩
    exact ⟨_, (hc.encode_eq writable).trans (if_neg (Nat.not_le.2 short))⟩

theorem encode_eq_ok {c : Container} {bs : Bytes} (h : c.encode = .ok bs) :
    ∃ t headerBytes, Json.encode Json.compact c.header = .ok t ∧ t.encode = .ok headerBytes ∧
      headerBytes.length < 0x100000000 ∧
      bs = preamble headerBytes.length ++ (headerBytes ++ c.chunks.flatMap (·.block.encode)) := by
  unfold encode at h
  obtain ⟨t, ht, h⟩ := bind_eq_ok.1 h
  obtain ⟨headerBytes, hb, h⟩ := bind_eq_ok.1 h
  split at h
  · cases h
  next fits =>
  refine ⟨t, headerBytes, ht, hb, Nat.not_le.1 fits, ?_⟩
  rw [← Except.ok.inj h, preamble, List.append_assoc _ headerBytes]

theorem decode_preamble {size : Nat} (h : size < 0x100000000) (rest : Bytes) :
    decode (preamble size ++ rest) =
      match splitAt? size rest with
      | none => corrupt .truncatedHeader
      | some (headerBytes, body) => readHeader headerBytes >>= fun fields ↦ ofHeader fields body := by
  have hm : magic.length = 4 := rfl
  have hl : (Bytes.ofNat 4 size).length = 4 := Bytes.length_ofNat _ _
  have hv : (Bytes.ofNat 2 formVersion).length = 2 := Bytes.length_ofNat _ _
  have hsize : Bytes.toNat (Bytes.ofNat 4 size) = size := Bytes.toNat_ofNat h
  have hversion : Bytes.toNat (Bytes.ofNat 2 formVersion) = formVersion :=
    Bytes.toNat_ofNat (by decide)
  have long : ¬ (preamble size ++ rest).length < 10 := by
    rw [List.length_append, length_preamble]
    omega
  rw [preamble, List.append_assoc, List.append_assoc] at long ⊢
  have d4 : (magic ++ (Bytes.ofNat 2 formVersion ++ (Bytes.ofNat 4 size ++ rest))).drop 4 = _ :=
    List.drop_left' hm
  have d6 : (Bytes.ofNat 2 formVersion ++ (Bytes.ofNat 4 size ++ rest)).drop 2 = _ :=
    List.drop_left' hv
  have d10 : (Bytes.ofNat 4 size ++ rest).drop 4 = _ := List.drop_left' hl
  rw [← d4, List.drop_drop] at d6
  rw [← d6, List.drop_drop] at d10
  rw [decode, if_neg long, List.take_left' hm, if_neg (by simp), d4, List.take_left' hv, hversion,
    if_neg (by simp), d6, List.take_left' hl, hsize]
  cases hs : splitAt? size rest <;> simp only [d10, hs]

theorem decode_of_encode {c : Container} (hc : c.Sound) {bs : Bytes} (h : c.encode = .ok bs) :
    decode bs = .ok c.readBack := by
  obtain ⟨t, headerBytes, ht, hb, fits, rfl⟩ := encode_eq_ok h
  rw [decode_preamble fits]
  simp only [splitAt?_append, readHeader_header hc ht hb, ok_bind, ofHeader_headerFields hc]

/-- The front of a container without chunks does not make a container with bytes that are fewer
than those that it lacks. -/
theorem decode_of_short {c : Container} (hc : c.chunks = []) {bs : Bytes} (h : c.encode = .ok bs)
    {count : Nat} (front : 10 ≤ count) {rest : Bytes}
    (short : (bs.take count ++ rest).length < bs.length) :
    decode (bs.take count ++ rest) = corrupt .truncatedHeader := by
  obtain ⟨t, headerBytes, -, -, fits, rfl⟩ := encode_eq_ok h
  rw [hc, List.flatMap_nil, List.append_nil] at short ⊢
  have cut : (preamble headerBytes.length ++ headerBytes).take count ++ rest =
      preamble headerBytes.length ++ (headerBytes.take (count - 10) ++ rest) := by
    rw [take_preamble front, List.append_assoc]
  have few : (headerBytes.take (count - 10) ++ rest).length < headerBytes.length := by
    rw [cut] at short
    simpa only [List.length_append, Nat.add_lt_add_iff_left] using short
  rw [cut, decode_preamble fits, splitAt?_eq_none few]

end Container

end ShardVault
