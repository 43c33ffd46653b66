import ShardVault.Proofs.Container.Encryption
import ShardVault.Proofs.Json.Reading

namespace ShardVault

namespace Container

theorem splitAt?_eq_some {count : Int} {bs own rest : Bytes}
    (h : splitAt? count bs = some (own, rest)) : own.length = count ∧ own ++ rest = bs := by
  simp only [splitAt?, Option.ite_none_left_eq_some, Bool.or_eq_true, decide_eq_true_eq,
    not_or, Option.some.injEq, Prod.mk.injEq] at h
  obtain ⟨⟨positive, enough⟩, rfl, rfl⟩ := h
  rw [List.length_take] at enough ⊢
  exact ⟨by omega, List.take_append_drop _ bs⟩

/-- A chunk that can be written into a container and read back. -/
structure Fits (chunk : Chunk) : Prop where
  nonce : chunk.block.nonce.length < Nat.pow 256 4
  tag : chunk.block.tag.length < Nat.pow 256 4
  hash : chunk.hash.Unpaired
  writable : (entry chunk).isWritable = true

theorem readChunk_eq_ok {position : Nat} {item : Json} {bs rest : Bytes} {chunk : Chunk}
    (hi : item.FromText) (h : readChunk position item bs = .ok (chunk, rest)) :
    chunk.index = position ∧ Fits chunk ∧ chunk.block.encode ++ rest = bs := by
  unfold readChunk at h
  split at h
  next fields =>
    obtain ⟨index, hindex, h⟩ := bind_eq_ok.1 h
    split at h
    · cases h
    next placed =>
    obtain ⟨length, hlength, h⟩ := bind_eq_ok.1 h
    split at h
    · cases h
    next own after hsplit =>
    obtain ⟨block, hblock, h⟩ := bind_eq_ok.1 h
    obtain ⟨hash, hhash, h⟩ := bind_eq_ok.1 h
    obtain ⟨rfl, rfl⟩ := Prod.mk.inj (Except.ok.inj h)
    obtain ⟨counted, rfl⟩ := splitAt?_eq_some hsplit
    obtain ⟨nonce, tag, rfl⟩ := SealedBlock.encode_of_decode (mapError_eq_ok.1 hblock)
    have indexSmall := hi.small (mapError_eq_ok.1 hindex)
    have lengthSmall := hi.small (mapError_eq_ok.1 hlength)
    rw [← counted] at lengthSmall
    refine ⟨not_not.1 placed, ⟨nonce, tag, hi.unpaired (mapError_eq_ok.1 hhash), ?_⟩, rfl⟩
    simp only [entry, Json.isWritable, Json.fieldsWritable, indexSmall, lengthSmall, decide_true,
      Bool.and_true]
  · cases h

theorem readChunks_eq_ok {position : Nat} {done chunks : List Chunk} {items : List Json}
    {bs rest : Bytes} (hi : ∀ item ∈ items, item.FromText)
    (h : readChunks position done items bs = .ok (chunks, rest)) :
    ∃ new, chunks = done.reverse ++ new ∧ firstMoved? position new = none ∧
      (∀ chunk ∈ new, Fits chunk) ∧ new.flatMap (·.block.encode) ++ rest = bs := by
  induction items generalizing position done bs with
  | nil =>
    obtain ⟨rfl, rfl⟩ := Prod.mk.inj (Except.ok.inj h)
    exact ⟨[], (List.append_nil _).symm, rfl, List.forall_mem_nil _, rfl⟩
  | cons item items ih =>
    rw [readChunks] at h
    split at h
    · cases h
    next chunk after hchunk =>
    -- The block of the entry is the front of the bytes; the later entries spell what is after it.
    obtain ⟨first, others⟩ := List.forall_mem_cons.1 hi
    obtain ⟨placed, fits, rfl⟩ := readChunk_eq_ok first hchunk
    obtain ⟨new, rfl, moved, hnew, rfl⟩ := ih others h
    refine ⟨chunk :: new, ?_, ?_, List.forall_mem_cons.2 ⟨fits, hnew⟩, ?_⟩
    · rw [List.reverse_cons, List.append_assoc, List.singleton_append]
    · rw [firstMoved?, if_pos placed, moved]
    · rw [List.flatMap_cons, List.append_assoc]

theorem readHeader_eq_ok {bs : Bytes} {fields : Entries Json} (h : readHeader bs = .ok fields) :
    (Json.object fields).FromText := by
  unfold readHeader at h
  split at h
  · cases h
  next t ht =>
  split at h
  · next hread =>
    obtain rfl := Except.ok.inj h
    exact Json.ofText_eq_ok (Utf8.isScalar_of_decode ht) hread
  all_goals cases h

theorem readTime_eq_ok {t : Text} {time : DateTime} (h : readTime t = .ok time) :
    time.readBack = time := by
  unfold readTime at h
  split at h
  · next found => exact DateTime.readBack_of_ofText? (Except.ok.inj h ▸ found)
  · cases h

/-- A container that was read can be written, unless its header is too long, and is read back. -/
structure Accepted (c : Container) : Prop where
  sound : c.Sound
  writable : c.header.isWritable = true
  readBack_eq : c.readBack = c

theorem ofHeader_eq_ok {fields : Entries Json} {body : Bytes} {c : Container}
    (hf : (Json.object fields).FromText) (h : ofHeader fields body = .ok c) :
    c.Accepted ∧ c.chunks.flatMap (·.block.encode) = body := by
  obtain ⟨fileId, hid, h⟩ := bind_eq_ok.1 h
  obtain ⟨merkleRoot, hroot, h⟩ := bind_eq_ok.1 h
  obtain ⟨plainHash, hhash, h⟩ := bind_eq_ok.1 h
  obtain ⟨plainSize, hsize, h⟩ := bind_eq_ok.1 h
  obtain ⟨chunkSize, hchunk, h⟩ := bind_eq_ok.1 h
  obtain ⟨spelled, -, h⟩ := bind_eq_ok.1 h
  obtain ⟨createdAt, htime, h⟩ := bind_eq_ok.1 h
  obtain ⟨table, htable, h⟩ := bind_eq_ok.1 h
  split at h
  · cases h
  next sizes =>
  obtain ⟨⟨chunks, rest⟩, hchunks, h⟩ := bind_eq_ok.1 h
  simp only at h
  split at h
  swap
  · cases h
  next whole =>
  obtain rfl := Except.ok.inj h
  obtain rfl := List.isEmpty_iff.1 whole
  obtain ⟨_, rfl, placed, fits, rfl⟩ :=
    readChunks_eq_ok (hf.items (mapError_eq_ok.1 htable)) hchunks
  obtain ⟨hplain, hstep⟩ : 0 ≤ plainSize ∧ 0 < chunkSize := by omega
  refine ⟨⟨⟨placed, hplain, hstep, fun chunk hc ↦ (fits chunk hc).nonce,
    fun chunk hc ↦ (fits chunk hc).tag, fun chunk hc ↦ (fits chunk hc).hash,
    hf.unpaired (mapError_eq_ok.1 hid), hf.unpaired (mapError_eq_ok.1 hroot),
    hf.unpaired (mapError_eq_ok.1 hhash)⟩, ?_, ?_⟩, (List.append_nil _).symm⟩
  · have table : Json.areWritable (chunks.map entry) = true := (Json.areWritable_iff _).2 <|
      List.forall_mem_map.2 fun chunk hc ↦ (fits chunk hc).writable
    simp only [header, Json.isWritable, Json.fieldsWritable, table,
      hf.small (mapError_eq_ok.1 hsize), hf.small (mapError_eq_ok.1 hchunk), decide_true,
      Bool.and_true]
  · rw [readBack, readTime_eq_ok htime]

theorem preamble_append_drop {bs : Bytes} (long : 10 ≤ bs.length) (magical : bs.take 4 = magic)
    (current : Bytes.toNat ((bs.drop 4).take 2) = formVersion) :
    Bytes.toNat ((bs.drop 6).take 4) < 0x100000000 ∧
      preamble (Bytes.toNat ((bs.drop 6).take 4)) ++ bs.drop 10 = bs := by
  have two : ((bs.drop 4).take 2).length = 2 := by
    rw [List.length_take, List.length_drop]
    omega
  have four : ((bs.drop 6).take 4).length = 4 := by
    rw [List.length_take, List.length_drop]
    omega
  have version := Bytes.ofNat_toNat two
  rw [current] at version
  have sixth : bs.drop 6 = (bs.drop 4).drop 2 := by rw [List.drop_drop]
  have tenth : bs.drop 10 = (bs.drop 6).drop 4 := by rw [List.drop_drop]
  refine ⟨Bytes.toNat_lt four, ?_⟩
  -- Four, two and four bytes and the rest, put together again from the back.
  rw [preamble, version, Bytes.ofNat_toNat four, ← magical, List.append_assoc, List.append_assoc,
    tenth, List.take_append_drop, sixth, List.take_append_drop, List.take_append_drop]

theorem decode_eq_ok {bs : Bytes} {c : Container} (h : decode bs = .ok c) :
    c.Accepted ∧ ∃ spelled : Bytes, spelled.length < 0x100000000 ∧
      preamble spelled.length ++ (spelled ++ c.chunks.flatMap (·.block.encode)) = bs := by
  unfold decode at h
  split at h
  · cases h
  next long =>
  split at h
  · cases h
  next magical =>
  simp only at h
  split at h
  · cases h
  next current =>
  split at h
  · cases h
  next spelled body hsplit =>
  obtain ⟨fields, hheader, h⟩ := bind_eq_ok.1 h
  obtain ⟨accepted, rfl⟩ := ofHeader_eq_ok (readHeader_eq_ok hheader) h
  obtain ⟨size, whole⟩ := splitAt?_eq_some hsplit
  obtain ⟨fits, front⟩ :=
    preamble_append_drop (Nat.not_lt.1 long) (not_not.1 magical) (not_not.1 current)
  rw [← Int.ofNat_inj.1 size] at fits front
  exact ⟨accepted, spelled, fits, whole ▸ front⟩

/-- Containers as they come about: of a file, or read from any bytes. -/
inductive Made : Container → Prop
  | encrypted {e : Encryptor} {data : Bytes} {fileId : Text} {nonces left : NonceSupply}
      {createdAt : DateTime} {c : Container}
      (encrypts : e.encrypt data fileId nonces createdAt = .ok (c, left))
      (scalar : fileId.isScalar = true) (whole : createdAt.IsWhole) : Made c
  | read {bs : Bytes} {c : Container} (reads : decode bs = .ok c) : Made c

theorem Made.sound {c : Container} (h : c.Made) : c.Sound ∧ c.readBack = c := by
  cases h with
  | @encrypted e data fileId nonces left createdAt _ encrypts scalar whole =>
    obtain ⟨key, -, h⟩ := bind_eq_ok.1 encrypts
    obtain ⟨rfl, -⟩ := Prod.mk.inj (Except.ok.inj h)
    refine ⟨sound_assemble createdAt scalar (e.seal_sealed key data nonces), ?_⟩
    rw [readBack, Encryptor.assemble, whole.readBack_eq]
  | read reads =>
    obtain ⟨accepted, -⟩ := decode_eq_ok reads
    exact ⟨accepted.sound, accepted.readBack_eq⟩

/-- A container is the same after it was written and read, whether it was made of a file or read from
bytes, and it can be written unless a number or the whole header is too long. Its chunks are at their
places, and its sizes are in range. -/
theorem Made.decode_eq_of_encode {c : Container} (h : c.Made) :
    ((∃ bs, c.encode = .ok bs) ↔
        c.header.isWritable = true ∧ c.headerBytes.length < 0x100000000) ∧
      (∀ bs, c.encode = .ok bs → decode bs = .ok c) ∧
      (∀ (place : Nat) (chunk : Chunk), c.chunks[place]? = some chunk → chunk.index = place) ∧
      0 ≤ c.plainSize ∧ 0 < c.chunkSize := by
  obtain ⟨sound, same⟩ := h.sound
  refine ⟨sound.exists_encode_iff, fun bs hbs ↦ ?_, fun place chunk hc ↦ ?_, sound.plainSize,
    sound.chunkSize⟩
  · rw [decode_of_encode sound hbs, same]
  · rw [index_of_placed sound.placed hc, Nat.zero_add]

def blank : Container :=
  ⟨"f", [], "", "", 0, 1, .epoch⟩

/-- The bytes of a container without chunks, under some spelling of its header. -/
def bare (spelled : Text) : Bytes :=
  preamble spelled.length ++ Utf8.encodeAll spelled

/-- The header of `blank` in its one spelling, up to the gap after the opening brace. -/
def blankHeader (gap : Text) : Text :=
  "\x7b" ++ gap ++ "\"chunkSize\":1,\"chunks\":[],\"createdAt\":\"1970-01-01T00:00:00+00:00\"," ++
    "\"fileId\":\"f\",\"merkleRoot\":\"\",\"originalHash\":\"\",\"originalSize\":0\x7d"

theorem blank_spellings : bare (blankHeader "") ≠ bare (blankHeader " ") ∧
    decode (bare (blankHeader "")) = .ok blank ∧ decode (bare (blankHeader " ")) = .ok blank := by
  decide +kernel

theorem decode_blank : decode (bare (blankHeader "")) = .ok blank :=
  blank_spellings.2.1

theorem decode_blank_spaced : decode (bare (blankHeader " ")) = .ok blank :=
  blank_spellings.2.2

theorem length_headerBytes_blank : blank.headerBytes.length < 50000 := by
  have bytes := Utf8.length_encodeAll_le (Json.write Json.compact blank.header)
  have weight := Json.length_write_le_weight blank.header
  have light : Json.weight blank.header < 10000 := by decide +kernel
  rw [headerBytes]
  omega

theorem exists_encode_blank : ∃ bs, blank.encode = .ok bs ∧ bs.length < 0x10000000 := by
  obtain ⟨accepted, -⟩ := decode_eq_ok decode_blank
  have short := length_headerBytes_blank
  refine ⟨_, (accepted.sound.encode_eq accepted.writable).trans (if_neg (by omega)), ?_⟩
  rw [List.length_append, List.length_append, length_preamble]
  rw [show blank.chunks.flatMap (·.block.encode) = [] from rfl, List.length_nil]
  omega

theorem Made.decode_eq_of_encode_blank : (∃ bs, blank.encode = .ok bs ∧ decode bs = .ok blank) ∧
    ∃ (e : Encryptor) (c : Container) (left : NonceSupply) (bs : Bytes),
      e.encrypt [7, 8, 9] "f" (.counting 0 true) .epoch = .ok (c, left) ∧ c.encode = .ok bs ∧
      decode bs = .ok c := by
  constructor
  · obtain ⟨-, back, -⟩ := Made.decode_eq_of_encode (.read decode_blank_spaced)
    obtain ⟨bs, hbs, -⟩ := exists_encode_blank
    exact ⟨bs, hbs, back bs hbs⟩
  · let e : Encryptor := ⟨⟨.fixed ⟨List.replicate 32 0, rfl⟩, defaultKeyInfo⟩, 2, Nat.two_pos⟩
    have scalar : Text.isScalar "f" = true := by decide
    obtain ⟨key, hkey⟩ : ∃ key, e.keyFor [7, 8, 9] "f" = .ok key :=
      e.exists_keyFor rfl scalar (by decide)
    have encrypts : e.encrypt [7, 8, 9] "f" (.counting 0 true) .epoch = .ok _ :=
      bind_eq_ok.2 ⟨key, hkey, rfl⟩
    obtain ⟨bs, hbs, -⟩ := encode_assemble .epoch scalar
      (e.seal_sealed key [7, 8, 9] (.counting 0 true)) (by decide)
      (headerFits_of_length_le (by decide) (by decide) (by decide) (by decide))
    obtain ⟨-, back, -⟩ :=
      Made.decode_eq_of_encode (.encrypted encrypts scalar DateTime.isWhole_epoch)
    exact ⟨e, _, _, bs, encrypts, hbs, back bs hbs⟩

/-- What was read is written with the header in its one spelling, unless that is too long; so the
bytes come back just if they had that spelling. -/
theorem encode_of_decode_iff {bs : Bytes} {c : Container} (h : decode bs = .ok c) :
    ∃ spelled : Bytes,
      bs = preamble spelled.length ++ (spelled ++ c.chunks.flatMap (·.block.encode)) ∧
      c.encode = (if 0x100000000 ≤ c.headerBytes.length then .error .unpackable
        else .ok (preamble c.headerBytes.length ++
          (c.headerBytes ++ c.chunks.flatMap (·.block.encode)))) ∧
      (c.encode = .ok bs ↔ spelled = c.headerBytes) := by
  obtain ⟨accepted, spelled, fits, rfl⟩ := decode_eq_ok h
  have written := accepted.sound.encode_eq accepted.writable
  refine ⟨spelled, rfl, written, ?_⟩
  rw [written]
  constructor
  · intro same
    split at same
    · cases same
    · have sizes : (preamble c.headerBytes.length).length = (preamble spelled.length).length := by
        rw [length_preamble, length_preamble]
      have rest := (List.append_inj (Except.ok.inj same) sizes).2
      exact (List.append_cancel_right rest).symm
  · rintro rfl
    rw [if_neg (Nat.not_le.2 fits)]

theorem encode_of_decode_iff_blank : decode (bare (blankHeader " ")) = .ok blank ∧
    ∃ spelled : Bytes,
      bare (blankHeader " ") = preamble spelled.length ++ (spelled ++ []) ∧
      (blank.encode = .ok (bare (blankHeader " ")) ↔ spelled = blank.headerBytes) := by
  obtain ⟨spelled, whole, -, same⟩ := encode_of_decode_iff decode_blank_spaced
  exact ⟨decode_blank_spaced, spelled, whole, same⟩

/-- Headers with a space and without one are read alike, and only one of them is written. -/
theorem not_encode_of_decode :
    (¬ ∀ (bs : Bytes) (c : Container), decode bs = .ok c → c.encode = .ok bs) ∧
      ¬ ∀ (bs other : Bytes) (c : Container), decode bs = .ok c → decode other = .ok c →
        bs = other := by
  have differ := blank_spellings.1
  refine ⟨fun same ↦ differ ?_, fun one ↦ differ (one _ _ _ decode_blank decode_blank_spaced)⟩
  have first := same _ _ decode_blank
  rw [same _ _ decode_blank_spaced] at first
  exact (Except.ok.inj first).symm

end Container

end ShardVault
