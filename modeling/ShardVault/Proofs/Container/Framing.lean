import ShardVault.Proofs.Container.Reading
import ShardVault.Proofs.Container.Workers

namespace ShardVault.Container

variable {fields : Entries Json} {item : Json} {items : List Json} {bs rest : Bytes}
variable {chunk : Chunk} {done chunks : List Chunk} {c : Container}

def wholeBlocks : List Chunk → (count : Nat) → Nat
  | [], _ => 0
  | chunk :: chunks, count =>
    if count < chunk.block.encode.length then 0
    else wholeBlocks chunks (count - chunk.block.encode.length) + 1

/-- What is wrong with a container of which only the first bytes of a count are there. -/
def cutFault (c : Container) (headerSize count : Nat) : ContainerFault :=
  if count < 10 then .tooShort
  else if count < 10 + headerSize then .truncatedHeader
  else .overrun (wholeBlocks c.chunks (count - (10 + headerSize)))

/-- An entry that was read takes the block of its chunk from the front of any bytes, and fewer bytes
than that do not do. -/
theorem readChunk_framed {position : Nat} (h : readChunk position item bs = .ok (chunk, rest)) :
    chunk.block.encode ++ rest = bs ∧
      (∀ other, readChunk position item (chunk.block.encode ++ other) = .ok (chunk, other)) ∧
        ∀ front : Bytes, front.length < chunk.block.encode.length →
          readChunk position item front = corrupt (.overrun position) := by
  unfold readChunk at h
  split at h
  next entryFields =>
    obtain ⟨index, hindex, h⟩ := bind_eq_ok.1 h
    split at h
    · cases h
    next placed =>
    obtain ⟨length, hlength, h⟩ := bind_eq_ok.1 h
    split at h
    · cases h
    next own after hsplit =>
    obtain ⟨block, hblock, h⟩ := bind_eq_ok.1 h
    obtain ⟨hash, hhash, h⟩ := bind_eq_ok.1 h
    obtain ⟨rfl, rfl⟩ := Prod.mk.inj (Except.ok.inj h)
    obtain ⟨rfl, rfl⟩ := splitAt?_eq_some hsplit
    obtain ⟨-, -, rfl⟩ := SealedBlock.encode_of_decode (mapError_eq_ok.1 hblock)
    refine ⟨rfl, fun other ↦ ?_, fun front short ↦ ?_⟩
    · simp only [readChunk, hindex, ok_bind, placed, if_false, hlength, splitAt?_append, hblock,
        hhash]
    · simp only [readChunk, hindex, ok_bind, placed, if_false, hlength, splitAt?_eq_none short]
  · cases h

theorem readChunks_append {position : Nat}
    (h : readChunks position done items bs = .ok (chunks, rest)) (more : Bytes) :
    readChunks position done items (bs ++ more) = .ok (chunks, rest ++ more) := by
  induction items generalizing position done bs with
  | nil =>
    obtain ⟨rfl, rfl⟩ := Prod.mk.inj (Except.ok.inj h)
    rfl
  | cons item items ih =>
    rw [readChunks] at h
    split at h
    · cases h
    next chunk after hchunk =>
    obtain ⟨rfl, own, -⟩ := readChunk_framed hchunk
    rw [readChunks, List.append_assoc, own]
    exact ih h

theorem readChunks_take {position : Nat}
    (h : readChunks position done items bs = .ok (chunks, [])) :
    ∃ new, chunks = done.reverse ++ new ∧ ∀ count < bs.length,
      readChunks position done items (bs.take count) =
        corrupt (.overrun (position + wholeBlocks new count)) := by
  induction items generalizing position done bs with
  | nil =>
    obtain ⟨rfl, rfl⟩ := Prod.mk.inj (Except.ok.inj h)
    exact ⟨[], (List.append_nil _).symm, fun count short ↦ absurd short (Nat.not_lt_zero count)⟩
  | cons item items ih =>
    rw [readChunks] at h
    split at h
    · cases h
    next chunk after hchunk =>
    obtain ⟨rfl, own, short⟩ := readChunk_framed hchunk
    obtain ⟨new, rfl, cut⟩ := ih h
    refine ⟨chunk :: new, ?_, fun count within ↦ ?_⟩
    · rw [List.reverse_cons, List.append_assoc, List.singleton_append]
    rw [List.length_append] at within
    rw [readChunks, wholeBlocks]
    -- The cut is inside the block of this entry, or some of the later ones are cut.
    rcases Nat.lt_or_ge count chunk.block.encode.length with inside | beyond
    · have few := (List.length_take_le count (chunk.block.encode ++ after)).trans_lt inside
      rw [short _ few, if_pos inside]
      rfl
    · rw [List.take_append, List.take_of_length_le beyond, own, if_neg (Nat.not_lt.2 beyond),
        Nat.add_comm (wholeBlocks _ _) 1, ← Nat.add_assoc]
      refine cut (count - chunk.block.encode.length) ?_
      omega

/-- A header that was read has a table, and all else that can be wrong is wrong with what follows. -/
theorem ofHeader_framed (h : ofHeader fields bs = .ok c) :
    ∃ table, readChunks 0 [] table bs = .ok (c.chunks, []) ∧ ∀ other,
      ofHeader fields other = readChunks 0 [] table other >>= fun parts ↦
        if parts.2.isEmpty then .ok { c with chunks := parts.1 } else corrupt .trailing := by
  obtain ⟨fileId, hid, h⟩ := bind_eq_ok.1 h
  obtain ⟨merkleRoot, hroot, h⟩ := bind_eq_ok.1 h
  obtain ⟨plainHash, hhash, h⟩ := bind_eq_ok.1 h
  obtain ⟨plainSize, hsize, h⟩ := bind_eq_ok.1 h
  obtain ⟨chunkSize, hchunk, h⟩ := bind_eq_ok.1 h
  obtain ⟨spelled, hspelled, h⟩ := bind_eq_ok.1 h
  obtain ⟨createdAt, htime, h⟩ := bind_eq_ok.1 h
  obtain ⟨table, htable, h⟩ := bind_eq_ok.1 h
  split at h
  · cases h
  next sizes =>
  obtain ⟨⟨chunks, rest⟩, hchunks, h⟩ := bind_eq_ok.1 h
  simp only at h
  split at h
  · next whole =>
    obtain rfl := Except.ok.inj h
    obtain rfl := List.isEmpty_iff.1 whole
    refine ⟨table, hchunks, fun other ↦ ?_⟩
    simp only [ofHeader, hid, hroot, hhash, hsize, hchunk, hspelled, htime, htable, ok_bind, sizes,
      if_false]
  · cases h

theorem ofHeader_append (h : ofHeader fields bs = .ok c) {more : Bytes} (hm : more ≠ []) :
    ofHeader fields (bs ++ more) = corrupt .trailing := by
  obtain ⟨table, hchunks, same⟩ := ofHeader_framed h
  rw [same, readChunks_append hchunks, List.nil_append, ok_bind]
  exact if_neg fun empty ↦ hm (List.isEmpty_iff.1 empty)

theorem ofHeader_take (h : ofHeader fields bs = .ok c) {count : Nat} (short : count < bs.length) :
    ofHeader fields (bs.take count) = corrupt (.overrun (wholeBlocks c.chunks count)) := by
  obtain ⟨table, hchunks, same⟩ := ofHeader_framed h
  obtain ⟨new, hnew, cut⟩ := readChunks_take hchunks
  rw [same, cut count short, hnew, Nat.zero_add]
  rfl

theorem exists_parts (h : decode bs = .ok c) :
    ∃ (spelled : Bytes) (fields : Entries Json), spelled.length < 0x100000000 ∧
      readHeader spelled = .ok fields ∧
        ofHeader fields (c.chunks.flatMap (·.block.encode)) = .ok c ∧
          preamble spelled.length ++ (spelled ++ c.chunks.flatMap (·.block.encode)) = bs := by
  obtain ⟨-, spelled, fits, rfl⟩ := decode_eq_ok h
  rw [decode_preamble fits, splitAt?_append] at h
  obtain ⟨fields, header, h⟩ := bind_eq_ok.1 h
  exact ⟨spelled, fields, fits, header, h, rfl⟩

theorem decode_take {spelled : Bytes} (fits : spelled.length < 0x100000000)
    (header : readHeader spelled = .ok fields)
    (read : ofHeader fields (c.chunks.flatMap (·.block.encode)) = .ok c) {count : Nat}
    (short : count < 10 + spelled.length + (c.chunks.flatMap (·.block.encode)).length) :
    decode ((preamble spelled.length ++
      (spelled ++ c.chunks.flatMap (·.block.encode))).take count) =
        corrupt (c.cutFault spelled.length count) := by
  rw [cutFault]
  rcases Nat.lt_or_ge count 10 with few | long
  · rw [decode, if_pos ((List.length_take_le count _).trans_lt few), if_pos few]
  rw [take_preamble long, decode_preamble fits, if_neg (Nat.not_lt.2 long)]
  rcases Nat.lt_or_ge count (10 + spelled.length) with inside | beyond
  · have few : count - 10 < spelled.length := by omega
    rw [splitAt?_eq_none ((List.length_take_le (count - 10) _).trans_lt few), if_pos inside]
  · rw [List.take_append, List.take_of_length_le (by omega), splitAt?_append,
      if_neg (Nat.not_lt.2 beyond), Nat.sub_sub]
    simp only [header, ok_bind]
    exact ofHeader_take read (by omega)

/-- Bytes that are read as a container are refused as corrupt when they are cut, and when anything
follows them. -/
theorem decode_framed (h : decode bs = .ok c) :
    (∃ headerSize,
      10 + headerSize + (c.chunks.flatMap (·.block.encode)).length = bs.length ∧
        ∀ front, front <+: bs → front ≠ bs →
          decode front = .error (.corruptContainer (c.cutFault headerSize front.length))) ∧
      ∀ more, more ≠ [] → decode (bs ++ more) = .error (.corruptContainer .trailing) := by
  obtain ⟨spelled, fields, fits, header, read, rfl⟩ := exists_parts h
  constructor
  · have size : 10 + spelled.length + (c.chunks.flatMap (·.block.encode)).length =
        (preamble spelled.length ++ (spelled ++ c.chunks.flatMap (·.block.encode))).length := by
      rw [List.length_append, List.length_append, length_preamble, Nat.add_assoc]
    refine ⟨spelled.length, size, fun front initial differs ↦ ?_⟩
    have short := lt_of_le_of_ne initial.length_le fun same ↦ differs (initial.eq_of_length same)
    rw [← size] at short
    have cut := decode_take fits header read short
    rwa [← List.prefix_iff_eq_take.1 initial] at cut
  · intro more hm
    rw [List.append_assoc, List.append_assoc, decode_preamble fits, splitAt?_append]
    simp only [header, ok_bind]
    exact ofHeader_append read hm

theorem exists_decode_two : ∃ bs c, decode bs = .ok c ∧ c.chunks.length = 2 := by
  have scalar : Text.isScalar "f" = true := by decide
  obtain ⟨key, chunks, -, -, hs, -⟩ := Encryptor.exists_encryptBy_least [7, 8, 9] (by decide)
  obtain ⟨bs, written, -⟩ := encode_assemble .epoch scalar hs (by decide)
    (headerFits_of_length_le (by decide) (by decide) (by decide) (by decide))
  have count := congrArg List.length hs.hashes
  rw [List.length_map, List.length_map] at count
  exact ⟨bs, _, decode_of_encode (sound_assemble .epoch scalar hs) written, count⟩

theorem decode_framed_two : ∃ (bs : Bytes) (c : Container) (headerSize : Nat),
    decode bs = .ok c ∧ c.chunks.length = 2 ∧
      decode bs.dropLast = .error (.corruptContainer (c.cutFault headerSize bs.dropLast.length)) ∧
      decode (bs ++ [0]) = .error (.corruptContainer .trailing) := by
  obtain ⟨bs, c, read, two⟩ := exists_decode_two
  obtain ⟨⟨headerSize, size, cut⟩, longer⟩ := decode_framed read
  refine ⟨bs, c, headerSize, read, two, cut _ (List.dropLast_prefix bs) fun same ↦ ?_,
    longer [0] (List.cons_ne_nil _ _)⟩
  have shorter := congrArg List.length same
  rw [List.length_dropLast] at shorter
  omega

end ShardVault.Container
