import Mathlib.Algebra.Order.Floor.Div
import ShardVault.Proofs.Shard.Gathering
import ShardVault.Proofs.Shard.Parity

namespace ShardVault

namespace Layout

structure Striped (l : Layout) (fileId : Text) (payload : Bytes) (size : Nat)
    (shards : List Shard) : Prop where
  count : shards.length = l.data + l.parity
  numbered : ∀ (i : Nat) (shard : Shard), shards[i]? = some shard → shard.index = i ∧
    shard.fileId = fileId ∧ (shard.isParity = true ↔ l.data ≤ i) ∧ shard.check = .ok true
  whole : (shards.take l.data).flatMap (·.data) = payload
  sliced : ∀ i < l.data, ∀ shard : Shard, shards[i]? = some shard →
    shard.data.length = min size (payload.length - i * size)
  filled : ∀ i ≥ l.data, ∀ shard : Shard, shards[i]? = some shard → shard.data.length = size
  restored : ∀ slot < l.data, ∀ number < l.parity, ∀ shard parity : Shard,
    shards[slot]? = some shard → shards[l.data + number]? = some parity →
      Bytes.padTo size shard.data =
        Bytes.xor (Bytes.xor parity.data (Twister.stream number size)) (Bytes.xorAll size
          (((shards.take l.data).eraseIdx slot).map fun other ↦ Bytes.padTo size other.data))

variable {l : Layout} {fileId : Text} {payload : Bytes} {shards : List Shard}

theorem length_of_mem_padded (l : Layout) (payload : Bytes) :
    ∀ part ∈ (slices (l.sliceSize payload) l.data payload).map (Bytes.padTo (l.sliceSize payload)),
      part.length = l.sliceSize payload :=
  List.forall_mem_map.2 fun slice hs ↦ by
    rw [Bytes.length_padTo, Nat.max_eq_right (length_of_mem_slices hs)]

theorem length_sumOf (l : Layout) (payload : Bytes) :
    (l.sumOf payload).length = l.sliceSize payload :=
  Bytes.length_xorAll (l.length_of_mem_padded payload)

theorem length_parity (l : Layout) (payload : Bytes) (number : Nat) :
    (Bytes.xor (l.sumOf payload) (Twister.stream number (l.sliceSize payload))).length =
      l.sliceSize payload := by
  rw [Bytes.length_xor, Twister.length_stream, length_sumOf, Nat.min_self]

theorem parity_xor_stream (l : Layout) (payload : Bytes) (number : Nat) :
    Bytes.xor (Bytes.xor (l.sumOf payload) (Twister.stream number (l.sliceSize payload)))
      (Twister.stream number (l.sliceSize payload)) = l.sumOf payload := by
  apply Bytes.xor_xor_cancel
  exact Nat.le_of_eq ((l.length_sumOf payload).trans (Twister.length_stream _ _).symm)

theorem padded_of_cut (h : l.cut fileId payload = .ok shards) :
    (shards.take l.data).map (fun shard ↦ Bytes.padTo (l.sliceSize payload) shard.data) =
      (slices (l.sliceSize payload) l.data payload).map (Bytes.padTo (l.sliceSize payload)) := by
  rw [take_of_cut h]
  apply List.ext_getElem
  · rw [List.length_map, List.length_mapIdx, List.length_map]
  · intro i _ _
    rw [List.getElem_map, List.getElem_mapIdx, List.getElem_map, Shard.ofData]

theorem striped_of_cut (h : l.cut fileId payload = .ok shards) :
    l.Striped fileId payload (l.sliceSize payload) shards where
  count := length_of_cut h
  numbered := by
    intro i shard hs
    rw [getElem?_of_cut h] at hs
    split at hs
    · next inside =>
      obtain rfl := Option.some.inj hs
      exact ⟨rfl, rfl, iff_of_false Bool.false_ne_true (Nat.not_le.2 inside),
        Shard.check_ofData ..⟩
    next beyond =>
    split at hs
    · obtain rfl := Option.some.inj hs
      exact ⟨rfl, rfl, iff_of_true rfl (Nat.not_lt.1 beyond), Shard.check_ofData ..⟩
    · cases hs
  whole := (isCut_of_cut h).payload
  sliced := by
    intro i inside shard hs
    rw [getElem?_of_cut h, if_pos inside] at hs
    obtain rfl := Option.some.inj hs
    rw [Shard.ofData, List.length_take, List.length_drop]
  filled := by
    intro i beyond shard hs
    rw [getElem?_of_cut h, if_neg (Nat.not_lt.2 beyond)] at hs
    split at hs
    · obtain rfl := Option.some.inj hs
      exact l.length_parity payload _
    · cases hs
  restored := by
    intro slot inside number among shard parity hs hp
    have parts := padded_of_cut h
    have sizes := l.length_of_mem_padded payload
    -- without its stream a parity is the sum of all slices, from which the others are taken away
    have sum := l.parity_xor_stream payload number
    rw [sumOf, ← parts] at sum
    rw [← parts] at sizes
    rw [getElem?_of_cut h, if_neg (by omega), if_pos (by rw [total]; omega)] at hp
    obtain rfl := Option.some.inj hp
    obtain ⟨bound, rfl⟩ := List.getElem?_eq_some_iff.1 hs
    have place : slot < ((shards.take l.data).map fun shard ↦
        Bytes.padTo (l.sliceSize payload) shard.data).length := by
      rw [List.length_map, List.length_take]
      omega
    rw [Shard.ofData, Nat.add_sub_cancel_left, sumOf, ← parts, sum, ← List.eraseIdx_map,
      Bytes.xor_xorAll_eraseIdx sizes place, List.getElem_map, List.getElem_take]

/-- A container that has bytes has its shards, if the streams of their parities can be drawn: as many
slices as the layout asks for, of which the last ones may be short or empty, and parities from which
any one slice is had by means of the others. -/
theorem create_striped (l : Layout) (c : Container) (payload : Bytes)
    (encodes : c.encode = .ok payload) :
    (8 * (payload.length ⌈/⌉ l.data) < 0x80000000 →
      ∃ shards told, l.create c = .ok (shards, told) ∧
        l.Striped c.fileId payload (payload.length ⌈/⌉ l.data) shards) ∧
    (0x80000000 ≤ 8 * (payload.length ⌈/⌉ l.data) → l.create c = .error (.overflow .draw)) := by
  constructor
  · intro fits
    obtain ⟨shards, told, creates, hcut⟩ := exists_create encodes (l := l) fits
    exact ⟨shards, told, creates, striped_of_cut hcut⟩
  · intro large
    have overflows : ¬ l.SliceFits payload.length := Nat.not_lt.2 large
    rw [create, encodes, ok_bind, cut_eq, if_neg overflows, error_bind]

theorem create_striped_blank : ∃ (l : Layout) (payload : Bytes) (shards : List Shard)
    (told : Event), Container.blank.encode = .ok payload ∧ payload.length < l.data ∧
      l.create .blank = .ok (shards, told) ∧
      l.Striped "f" payload (payload.length ⌈/⌉ l.data) shards := by
  obtain ⟨payload, encodes, short⟩ := Container.exists_encode_blank
  let l : Layout := ⟨payload.length + 1, 2, Nat.succ_pos _, Nat.two_pos⟩
  obtain ⟨shards, told, creates, striped⟩ :=
    (create_striped l .blank payload encodes).1 (l.sliceFits_of_lt short)
  exact ⟨l, payload, shards, told, encodes, Nat.lt_succ_self _, creates, striped⟩

/-- A file of `2 ^ 28` bytes that is sealed in one chunk has a container, and the container has no
shards in a layout of one data shard. -/
theorem not_exists_create : ∃ (e : Container.Encryptor) (data : Bytes) (c : Container)
    (left : NonceSupply) (payload : Bytes) (l : Layout), data.length = 0x10000000 ∧
      e.encryptBy .backward data "f" (.counting 0 true) .epoch = .ok (c, left) ∧
      c.encode = .ok payload ∧ l.data = 1 ∧ l.create c = .error (.overflow .draw) := by
  obtain ⟨data, length⟩ : ∃ data : Bytes, data.length = 0x10000000 :=
    ⟨List.replicate 0x10000000 0, List.length_replicate⟩
  let e : Container.Encryptor :=
    ⟨⟨.fixed ⟨List.replicate 32 0, rfl⟩, defaultKeyInfo⟩, 0x10000000, by decide⟩
  have scalar : Text.isScalar "f" = true := by decide
  have allowed : data.length ≤ Container.maxFileSize := by
    rw [length]
    decide
  obtain ⟨key, hkey⟩ := e.exists_keyFor rfl scalar allowed
  obtain ⟨chunks, left, sealed, encrypts⟩ := e.exists_encryptBy .backward (.counting 0 true) .epoch hkey
  have one : (ShardVault.chunks e.chunkSize data).length = 1 := by
    rw [length_chunks e.positive, length]
    exact (by decide : (0x10000000 + 0x10000000 - 1) / 0x10000000 = 1)
  have small : data.length < Nat.pow 10 19 := by
    rw [length]
    decide
  obtain ⟨payload, encodes, size⟩ := Container.encode_assemble .epoch scalar sealed small
    (Container.headerFits_of_chunks_le (by decide) small (by omega) (by decide) (by decide))
  let l : Layout := ⟨1, 1, Nat.one_pos, Nat.one_pos⟩
  refine ⟨e, data, _, left, payload, l, length, encrypts, encodes, rfl,
    (create_striped l _ payload encodes).2 ?_⟩
  have whole : payload.length ⌈/⌉ 1 = payload.length := by
    rw [Nat.ceilDiv_eq_add_pred_div, Nat.div_one, Nat.add_sub_cancel]
  have large : data.length ≤ payload.length := by
    rw [size, Container.Encryptor.containerSize, Container.sum_pieces, chunks_flatten e.positive]
    omega
  rw [show l.data = 1 from rfl, whole]
  omega

end Layout

end ShardVault
