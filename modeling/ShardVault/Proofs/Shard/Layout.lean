import ShardVault.Proofs.Shard.Parity
import ShardVault.Proofs.Shard.RoundTrip
import ShardVault.Proofs.Shard.Usable

namespace ShardVault

namespace Layout

theorem length_slices (size count : Nat) (bs : Bytes) : (slices size count bs).length = count := by
  induction count generalizing bs with
  | zero => rfl
  | succ count ih => rw [slices, List.length_cons, ih]

theorem getElem?_slices (size count : Nat) (bs : Bytes) (i : Nat) : (slices size count bs)[i]? =
    if i < count then some ((bs.drop (i * size)).take size) else none := by
  induction count generalizing bs i with
  | zero => rfl
  | succ count ih =>
    cases i with
    | zero => simp [slices]
    | succ i =>
      rw [slices, List.getElem?_cons_succ, ih, List.drop_drop, Nat.succ_mul, Nat.add_comm size]
      simp only [Nat.succ_lt_succ_iff]

theorem length_of_mem_slices {size count : Nat} {bs slice : Bytes}
    (h : slice ∈ slices size count bs) : slice.length ≤ size := by
  induction count generalizing bs with
  | zero => cases h
  | succ count ih =>
    rcases List.mem_cons.1 h with rfl | h
    · exact List.length_take_le size bs
    · exact ih h

theorem flatten_slices {size count : Nat} {bs : Bytes} (h : bs.length ≤ size * count) :
    (slices size count bs).flatten = bs := by
  induction count generalizing bs with
  | zero => exact (List.length_eq_zero_iff.1 (by simpa using h)).symm
  | succ count ih =>
    have hd : (bs.drop size).length ≤ size * count := by
      rw [List.length_drop]
      rw [Nat.mul_succ] at h
      omega
    rw [slices, List.flatten_cons, ih hd, List.take_append_drop]

theorem length_le_sliceSize (l : Layout) (payload : Bytes) :
    payload.length ≤ l.sliceSize payload * l.data := by
  have hp := l.dataPositive
  have hdiv := Nat.div_add_mod (payload.length + l.data - 1) l.data
  have hmod := Nat.mod_lt (payload.length + l.data - 1) hp
  rw [sliceSize, Nat.mul_comm]
  omega

structure IsCut (l : Layout) (fileId : Text) (payload : Bytes) (shards : List Shard) : Prop where
  length : shards.length = l.total
  shard : ∀ (i : Nat) (h : i < shards.length),
    ∃ piece, shards[i] = Shard.ofData fileId i (decide (l.data ≤ i)) piece
  payload : (shards.take l.data).flatMap (·.data) = payload

variable {l : Layout} {fileId : Text} {payload : Bytes} {shards : List Shard}

theorem flatMap_mapIdx_ofData (fileId : Text) (isParity : Bool) (pieces : List Bytes) :
    (pieces.mapIdx fun i piece ↦ Shard.ofData fileId i isParity piece).flatMap (·.data) =
      pieces.flatten := by
  rw [List.flatMap_def]
  congr 1
  apply List.ext_getElem (by simp)
  intro i _ _
  rw [List.getElem_map, List.getElem_mapIdx]
  rfl

def sumOf (l : Layout) (payload : Bytes) : Bytes :=
  Bytes.xorAll (l.sliceSize payload)
    ((slices (l.sliceSize payload) l.data payload).map (Bytes.padTo (l.sliceSize payload)))

/-- The slices of so many bytes are of a size at which the streams of their parities can be drawn. -/
def SliceFits (l : Layout) (length : Nat) : Prop :=
  8 * ((length + l.data - 1) / l.data) < 0x80000000

instance (l : Layout) (length : Nat) : Decidable (l.SliceFits length) :=
  inferInstanceAs (Decidable (_ < _))

theorem sliceFits_of_lt (l : Layout) {length : Nat} (h : length < 0x10000000) :
    l.SliceFits length := by
  have small : (length + l.data - 1) / l.data ≤ length := by
    have positive := l.dataPositive
    have wide : length ≤ length * l.data := Nat.le_mul_of_pos_right _ positive
    rw [Nat.div_le_iff_le_mul positive]
    omega
  rw [SliceFits]
  omega

def shardsOf (l : Layout) (fileId : Text) (payload : Bytes) : List Shard :=
  ((slices (l.sliceSize payload) l.data payload).mapIdx fun i piece ↦
      Shard.ofData fileId i false piece) ++
    ((List.range l.parity).map fun number ↦ Bytes.xor (l.sumOf payload)
        (Twister.stream number (l.sliceSize payload))).mapIdx fun i piece ↦
      Shard.ofData fileId (l.data + i : Nat) true piece

theorem cut_eq (l : Layout) (fileId : Text) (payload : Bytes) : l.cut fileId payload =
    if l.SliceFits payload.length then .ok (l.shardsOf fileId payload) else .error (.overflow .draw) := by
  have numbers : List.range l.parity ≠ [] := by
    rw [Ne, List.range_eq_nil]
    exact Nat.ne_of_gt l.parityPositive
  simp only [cut, Parity.ofSlices_eq (fun _ ↦ length_of_mem_slices) numbers]
  by_cases fits : 8 * l.sliceSize payload < 0x80000000
  · rw [if_pos fits, if_pos (show l.SliceFits payload.length from fits), ok_bind]
    rfl
  · rw [if_neg fits, if_neg (show ¬ l.SliceFits payload.length from fits), error_bind]

theorem cut_eq_ok_iff : l.cut fileId payload = .ok shards ↔
    l.SliceFits payload.length ∧ l.shardsOf fileId payload = shards := by
  rw [cut_eq]
  split
  · next fits => rw [Except.ok.injEq, and_iff_right fits]
  · next large => exact ⟨nofun, fun h ↦ absurd h.1 large⟩

theorem getElem?_of_cut (h : l.cut fileId payload = .ok shards) (i : Nat) : shards[i]? =
    if i < l.data then
      some (Shard.ofData fileId i false
        ((payload.drop (i * l.sliceSize payload)).take (l.sliceSize payload)))
    else if i < l.total then
      some (Shard.ofData fileId i true
        (Bytes.xor (l.sumOf payload) (Twister.stream (i - l.data) (l.sliceSize payload))))
    else none := by
  obtain ⟨-, rfl⟩ := cut_eq_ok_iff.1 h
  rw [shardsOf, List.getElem?_append, List.length_mapIdx, length_slices]
  split
  · next inside => rw [List.getElem?_mapIdx, getElem?_slices, if_pos inside, Option.map_some]
  next beyond =>
  rw [List.getElem?_mapIdx, List.getElem?_map]
  split
  · next among =>
    have place : l.data + (i - l.data) = i := by omega
    have number : i - l.data < l.parity := by
      rw [total] at among
      omega
    rw [List.getElem?_range number, Option.map_some, Option.map_some, place]
  · next outside =>
    rw [List.getElem?_eq_none, Option.map_none, Option.map_none]
    rw [List.length_range]
    rw [total] at outside
    omega

theorem length_of_cut (h : l.cut fileId payload = .ok shards) : shards.length = l.total := by
  obtain ⟨-, rfl⟩ := cut_eq_ok_iff.1 h
  rw [shardsOf, List.length_append, List.length_mapIdx, List.length_mapIdx, length_slices,
    List.length_map, List.length_range, total]

theorem take_of_cut (h : l.cut fileId payload = .ok shards) : shards.take l.data =
    (slices (l.sliceSize payload) l.data payload).mapIdx fun i piece ↦
      Shard.ofData fileId i false piece := by
  obtain ⟨-, rfl⟩ := cut_eq_ok_iff.1 h
  exact List.take_left' (by rw [List.length_mapIdx, length_slices])

theorem isCut_of_cut (h : l.cut fileId payload = .ok shards) : l.IsCut fileId payload shards where
  length := length_of_cut h
  shard := by
    intro i hi
    have own := getElem?_of_cut h i
    rw [List.getElem?_eq_getElem hi] at own
    split at own
    · next inside =>
      rw [decide_eq_false (Nat.not_le.2 inside)]
      exact ⟨_, Option.some.inj own⟩
    · next beyond =>
      rw [if_pos (length_of_cut h ▸ hi)] at own
      rw [decide_eq_true (Nat.not_lt.1 beyond)]
      exact ⟨_, Option.some.inj own⟩
  payload := by
    rw [take_of_cut h, flatMap_mapIdx_ofData, flatten_slices (l.length_le_sliceSize payload)]

theorem IsCut.data_le (h : l.IsCut fileId payload shards) : l.data ≤ shards.length := by
  rw [h.length, total]
  omega

theorem IsCut.ids (h : l.IsCut fileId payload shards) :
    shards.map (·.id) = (List.range l.total).map fun i : Nat ↦ shardId fileId i := by
  apply List.ext_getElem (by simp [h.length])
  intro i hi _
  obtain ⟨piece, hs⟩ := h.shard i (by simpa using hi)
  rw [List.getElem_map, hs, List.getElem_map, List.getElem_range]
  rfl

theorem IsCut.exists_ofData (h : l.IsCut fileId payload shards) {shard : Shard}
    (hs : shard ∈ shards) :
    ∃ i < l.total, ∃ piece, shard = Shard.ofData fileId i (decide (l.data ≤ i)) piece := by
  obtain ⟨i, hi, rfl⟩ := List.mem_iff_getElem.1 hs
  obtain ⟨piece, hpiece⟩ := h.shard i hi
  exact ⟨i, h.length ▸ hi, piece, hpiece⟩

theorem IsCut.exists_id (h : l.IsCut fileId payload shards) {shard : Shard} (hs : shard ∈ shards) :
    ∃ i < l.total, shard.id = shardId fileId i := by
  obtain ⟨i, hi, piece, rfl⟩ := h.exists_ofData hs
  exact ⟨i, hi, rfl⟩

theorem IsCut.exists_encode (h : l.IsCut fileId payload shards) (hid : fileId.isScalar = true)
    (hl : (Utf8.encodeAll fileId).length < 0x10000) (htotal : l.total < 0x100000000)
    {shard : Shard} (hs : shard ∈ shards) : ∃ bs, shard.encode = .ok bs := by
  obtain ⟨i, hi, piece, rfl⟩ := h.exists_ofData hs
  exact Shard.exists_encode_ofData hid hl (Nat.lt_trans hi htotal) _ piece

theorem IsCut.decode_of_encode (h : l.IsCut fileId payload shards) {shard : Shard}
    (hs : shard ∈ shards) {bs : Bytes} (hbs : shard.encode = .ok bs) :
    Shard.decode bs = .ok shard := by
  obtain ⟨i, -, piece, rfl⟩ := h.exists_ofData hs
  exact Shard.decode_of_encode_ofData hbs

theorem IsCut.verify (h : l.IsCut fileId payload shards) {shard : Shard} (hs : shard ∈ shards) :
    shard.verify = true := by
  obtain ⟨i, -, piece, rfl⟩ := h.exists_ofData hs
  exact Shard.verify_ofData ..

theorem IsCut.isParity_iff (h : l.IsCut fileId payload shards) {shard : Shard}
    (hs : shard ∈ shards) : shard.isParity = true ↔ (l.data : Int) ≤ shard.index := by
  obtain ⟨i, -, piece, rfl⟩ := h.exists_ofData hs
  simp [Shard.ofData]

theorem IsCut.isParity (h : l.IsCut fileId payload shards) {i : Nat} (hi : i < shards.length) :
    shards[i].isParity = decide (l.data ≤ i) := by
  obtain ⟨piece, hs⟩ := h.shard i hi
  rw [hs]
  rfl

theorem IsCut.filter_data (h : l.IsCut fileId payload shards) :
    shards.filter (!·.isParity) = shards.take l.data := by
  have first : (shards.take l.data).filter (!·.isParity) = shards.take l.data := by
    apply List.filter_eq_self.2
    intro s hs
    obtain ⟨i, hi, rfl⟩ := List.mem_take_iff_getElem.1 hs
    simp only [h.isParity, Bool.not_eq_true', decide_eq_false_iff_not]
    omega
  have last : (shards.drop l.data).filter (!·.isParity) = [] := by
    apply List.filter_eq_nil_iff.2
    intro s hs
    obtain ⟨i, hi, rfl⟩ := List.mem_drop_iff_getElem.1 hs
    simp [h.isParity]
  conv => lhs; rw [← List.take_append_drop l.data shards]
  rw [List.filter_append, first, last, List.append_nil]

theorem length_flatMap_data (shards : List Shard) :
    (shards.flatMap (·.data)).length = shards.foldr (fun s n ↦ s.data.length + n) 0 := by
  induction shards with
  | nil => rfl
  | cons s shards ih => rw [List.flatMap_cons, List.length_append, ih, List.foldr_cons]

theorem IsCut.dataSize (h : l.IsCut fileId payload shards) :
    (shards.filter (!·.isParity)).foldr (fun s n ↦ s.data.length + n) 0 = payload.length := by
  rw [h.filter_data, ← length_flatMap_data, h.payload]

theorem usable_ofData (fileId : Text) {slot : Nat} (inside : slot < l.data) (piece : Bytes) :
    l.Usable (some fileId) (Shard.ofData fileId slot false piece) :=
  ⟨⟨rfl, Int.natCast_nonneg slot, Int.ofNat_lt.2 inside, fun _ same ↦ Option.some.inj same⟩, rfl⟩

theorem reconstruct_ofData {pieces : List Bytes} (hl : pieces.length = l.data) :
    l.reconstruct ((pieces.mapIdx fun i piece ↦ Shard.ofData fileId i false piece).map some)
      (some fileId) = Container.decode pieces.flatten := by
  have usable : ∀ shard ∈ pieces.mapIdx fun i piece ↦ Shard.ofData fileId i false piece,
      l.Usable (some fileId) shard := by
    intro shard hs
    obtain ⟨slot, inside, rfl⟩ := List.mem_mapIdx.1 hs
    exact usable_ofData fileId (hl ▸ inside) _
  have size : (pieces.mapIdx fun i piece ↦ Shard.ofData fileId i false piece).length = l.data := by
    rw [List.length_mapIdx, hl]
  have numbered : ∀ (slot : Nat) (shard : Shard),
      (pieces.mapIdx fun i piece ↦ Shard.ofData fileId i false piece)[slot]? = some shard →
      shard.index = slot := by
    intro slot shard hs
    rw [List.getElem?_mapIdx] at hs
    obtain ⟨piece, -, rfl⟩ := Option.map_eq_some_iff.1 hs
    rfl
  rw [Layout.reconstruct,
    payload_of_slots size numbered fun _ ↦ by rw [usables_of_forall usable], ok_bind,
    flatMap_mapIdx_ofData]

theorem IsCut.reconstruct (h : l.IsCut fileId payload shards) :
    l.reconstruct ((shards.take l.data).map some) (some fileId) = Container.decode payload := by
  have hl : (shards.take l.data).length = l.data := List.length_take_of_le h.data_le
  have pieces : shards.take l.data = ((shards.take l.data).map (·.data)).mapIdx fun i piece ↦
      Shard.ofData fileId i false piece := by
    apply List.ext_getElem (by simp)
    intro i hi _
    obtain ⟨piece, hs⟩ := h.shard i (by rw [List.length_take] at hi; omega)
    rw [List.getElem_mapIdx, List.getElem_map, List.getElem_take, hs, decide_eq_false (by omega)]
    rfl
  rw [pieces, reconstruct_ofData (by rw [List.length_map, hl]), ← List.flatMap_def, h.payload]

end Layout

end ShardVault
