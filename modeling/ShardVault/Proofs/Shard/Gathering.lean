import ShardVault.Proofs.Container.Reading
import ShardVault.Proofs.Container.Sizes
import ShardVault.Proofs.Shard.Reconstruction

namespace ShardVault

namespace Layout

variable {l : Layout} {fileId : Text}

/-- A shard that a file has no use for: a parity shard, one outside the data slots, of another file,
or with a hash that is not its own. -/
def Useless (l : Layout) (fileId : Text) (shard : Shard) : Prop :=
  shard.isParity = true ∨ shard.index < 0 ∨ l.data ≤ shard.index ∨ shard.fileId ≠ fileId ∨
    shard.check = .ok false

theorem check_of_useless {shard : Shard} (h : l.Useless fileId shard)
    (placed : l.Placed (some fileId) shard) : shard.check = .ok false := by
  rcases h with isParity | negative | beyond | other | damaged
  · exact absurd isParity (Bool.eq_false_iff.1 placed.isData)
  · exact absurd negative (Int.not_lt.2 placed.nonneg)
  · exact absurd beyond (Int.not_le.2 placed.inLayout)
  · exact absurd (placed.own fileId rfl) other
  · exact damaged

theorem not_usable_of_useless {shard : Shard} (h : l.Useless fileId shard) :
    ¬ l.Usable (some fileId) shard := by
  intro usable
  have unequal := (Text.guarded_eq_ok_iff.1 (check_of_useless h usable.toPlaced)).2
  rw [usable.intact, beq_self_eq_true] at unequal
  cases unequal

/-- What was gathered of a file: all its data shards, each once or more, gaps, and shards that the
file has no use for, in any order. -/
structure Gathered (l : Layout) (fileId : Text) (shards : List Shard)
    (gathered : List (Option Shard)) : Prop where
  all : ∀ shard ∈ shards.take l.data, some shard ∈ gathered
  others : ∀ shard, some shard ∈ gathered →
    shard ∈ shards.take l.data ∨ l.Useless fileId shard

variable {payload : Bytes} {shards : List Shard} {gathered : List (Option Shard)}

theorem IsCut.getElem?_take (h : l.IsCut fileId payload shards) {slot : Nat} {shard : Shard}
    (hs : (shards.take l.data)[slot]? = some shard) :
    ∃ piece, shard = Shard.ofData fileId slot false piece ∧ slot < l.data := by
  rw [List.getElem?_take] at hs
  split at hs
  · next inside =>
    obtain ⟨bound, rfl⟩ := List.getElem?_eq_some_iff.1 hs
    obtain ⟨piece, hp⟩ := h.shard slot bound
    rw [decide_eq_false (Nat.not_le.2 inside)] at hp
    exact ⟨piece, hp, inside⟩
  · cases hs

theorem Gathered.not_unreadable (h : l.Gathered fileId shards gathered)
    (cut : l.IsCut fileId payload shards) : ¬ l.Unreadable (some fileId) gathered := by
  rintro ⟨shard, hs, placed, surrogate⟩
  have refused := Shard.check_eq_error surrogate
  rcases h.others shard hs with own | useless
  · obtain ⟨i, -, piece, rfl⟩ := cut.exists_ofData (List.mem_of_mem_take own)
    rw [Shard.check_ofData] at refused
    cases refused
  · rw [check_of_useless useless placed] at refused
    cases refused

theorem Gathered.mem_usables_iff (h : l.Gathered fileId shards gathered)
    (cut : l.IsCut fileId payload shards) {shard : Shard} :
    shard ∈ l.usables (some fileId) gathered ↔ shard ∈ shards.take l.data := by
  rw [mem_usables]
  constructor
  · rintro ⟨hs, usable⟩
    exact (h.others shard hs).resolve_right fun useless ↦ not_usable_of_useless useless usable
  · intro own
    obtain ⟨slot, found⟩ := List.mem_iff_getElem?.1 own
    obtain ⟨piece, rfl, inside⟩ := cut.getElem?_take found
    exact ⟨h.all _ own, usable_ofData fileId inside piece⟩

theorem Gathered.reconstructFrom_eq (h : l.Gathered fileId shards gathered)
    (cut : l.IsCut fileId payload shards) :
    l.reconstructFrom gathered none (some fileId) = Container.decode payload := by
  have size : (shards.take l.data).length = l.data := List.length_take_of_le cut.data_le
  have numbered : ∀ (slot : Nat) (shard : Shard), (shards.take l.data)[slot]? = some shard →
      shard.index = slot := by
    intro slot shard found
    obtain ⟨piece, rfl, -⟩ := cut.getElem?_take found
    rfl
  rw [reconstructFrom_of_readable (h.not_unreadable cut),
    payload_of_slots size numbered fun _ ↦ h.mem_usables_iff cut, ok_bind, cut.payload]

theorem exists_withCount (other l : Layout) :
    ∃ m, other.withCount (some l.data) = .ok m ∧ m.data = l.data := by
  have positive := l.dataPositive
  have parity := other.parityPositive
  simp only [withCount]
  split
  · next same => exact ⟨other, rfl, (Int.ofNat_inj.1 same).symm⟩
  · have counts : 0 < (l.data : Int) ∧ 0 < (other.parity : Int) := by omega
    rw [Layout.of, dif_pos counts]
    exact ⟨_, rfl, Int.toNat_natCast l.data⟩

theorem reconstructFrom_congr {m : Layout} (same : m.data = l.data) :
    m.reconstructFrom gathered none (some fileId) =
      l.reconstructFrom gathered none (some fileId) := by
  obtain ⟨data, parity, positive, positive'⟩ := m
  obtain rfl : data = l.data := same
  rfl

end Layout

namespace Container

/-- Containers as they come about: of a file, whatever the clock shows, or read from any bytes. -/
inductive Arises : Container → Prop
  | encrypted {e : Encryptor} {w : Workers} {data : Bytes} {fileId : Text}
      {nonces left : NonceSupply} {createdAt : DateTime} {c : Container}
      (encrypts : e.encryptBy w data fileId nonces createdAt = .ok (c, left)) : Arises c
  | read {bs : Bytes} {c : Container} (reads : decode bs = .ok c) : Arises c

theorem Arises.sound {c : Container} (h : c.Arises) : c.Sound := by
  cases h with
  | encrypted encrypts =>
    obtain ⟨key, chunks, hkey, hs, rfl⟩ := Encryptor.encryptBy_eq_ok encrypts
    obtain ⟨-, -, -, scalar, -⟩ :=
      KeyDeriver.fileKey_eq_ok_iff.1 (Encryptor.keyFor_eq_ok_iff.1 hkey).2
    exact sound_assemble _ scalar hs
  | read reads => exact (decode_eq_ok reads).1.sound

/-- A container is what it is read back as, unless its time is at a distance of less than one second
from universal time. -/
theorem readBack_eq_iff {c : Container} : c.readBack = c ↔
    ∀ o ∈ c.createdAt.offset, o.micros = 0 ∨ 1000000 ≤ o.micros.natAbs := by
  obtain ⟨fileId, chunks, merkleRoot, plainHash, plainSize, chunkSize, ⟨date, time, offset⟩⟩ := c
  cases offset with
  | none => exact iff_of_true rfl nofun
  | some o =>
    obtain ⟨micros, inDay⟩ := o
    simp only [readBack, DateTime.readBack, Option.map_some, Container.mk.injEq, DateTime.mk.injEq,
      true_and, Option.some.injEq, Option.mem_def, forall_eq', Offset.readBack]
    split
    · next small =>
      rw [Offset.utc, Offset.mk.injEq]
      omega
    · next large => exact iff_of_true rfl (.inr (Nat.not_lt.1 large))

end Container

namespace Layout

variable {l : Layout} {c : Container} {payload : Bytes} {shards : List Shard}

theorem create_eq_ok_iff (encodes : c.encode = .ok payload) {told : Event} :
    l.create c = .ok (shards, told) ↔ l.cut c.fileId payload = .ok shards ∧
      .sharded c.fileId shards.length l.data l.parity (l.sliceSize payload) = told := by
  rw [create, encodes, ok_bind]
  constructor
  · intro h
    obtain ⟨cut, hcut, h⟩ := bind_eq_ok.1 h
    obtain ⟨rfl, rfl⟩ := Prod.mk.inj (Except.ok.inj h)
    exact ⟨hcut, rfl⟩
  · rintro ⟨hcut, rfl⟩
    rw [hcut, ok_bind]

theorem exists_create (encodes : c.encode = .ok payload) (fits : l.SliceFits payload.length) :
    ∃ shards told, l.create c = .ok (shards, told) ∧ l.cut c.fileId payload = .ok shards :=
  have hcut := cut_eq_ok_iff.2 ⟨fits, rfl⟩
  ⟨_, _, (create_eq_ok_iff encodes).2 ⟨hcut, rfl⟩, hcut⟩

theorem exists_create_iff (encodes : c.encode = .ok payload) :
    (∃ shards told, l.create c = .ok (shards, told)) ↔ l.SliceFits payload.length := by
  constructor
  · rintro ⟨shards, told, creates⟩
    exact (cut_eq_ok_iff.1 ((create_eq_ok_iff encodes).1 creates).1).1
  · intro fits
    obtain ⟨shards, told, creates, -⟩ := exists_create encodes fits
    exact ⟨shards, told, creates⟩

/-- A container has shards if the streams of their parities can be drawn. Its data shards give it
back, whatever else was gathered with them and whichever layout is asked for their number; only a
time at a distance of less than one second from universal time comes back as universal time. -/
theorem reconstructFrom_gathered (l other : Layout) (c : Container) (payload : Bytes)
    (arises : c.Arises) (encodes : c.encode = .ok payload) :
    ((∃ shards told, l.create c = .ok (shards, told)) ↔ l.SliceFits payload.length) ∧
      (∀ (shards : List Shard) (told : Event), l.create c = .ok (shards, told) →
        ∀ gathered : List (Option Shard), l.Gathered c.fileId shards gathered →
          l.reconstructFrom gathered none (some c.fileId) = .ok c.readBack ∧
          other.reconstructFrom gathered (some l.data) (some c.fileId) = .ok c.readBack) ∧
      (c.readBack = c ↔
        ∀ o ∈ c.createdAt.offset, o.micros = 0 ∨ 1000000 ≤ o.micros.natAbs) := by
  refine ⟨exists_create_iff encodes, fun shards told creates gathered hg ↦ ?_,
    Container.readBack_eq_iff⟩
  have cut := isCut_of_cut ((create_eq_ok_iff encodes).1 creates).1
  have back := hg.reconstructFrom_eq cut
  rw [Container.decode_of_encode arises.sound encodes] at back
  obtain ⟨m, asked, same⟩ := exists_withCount other l
  have under : other.reconstructFrom gathered (some l.data) (some c.fileId) =
      m.reconstructFrom gathered none (some c.fileId) := by
    rw [reconstructFrom, asked]
    rfl
  exact ⟨back, by rw [under, reconstructFrom_congr same, back]⟩

theorem IsCut.gathered_twice {fileId : Text} (cut : l.IsCut fileId payload shards) :
    l.Gathered fileId shards (none :: (shards.reverse ++ shards).map some) where
  all shard hs := by
    refine List.mem_cons_of_mem _ (List.mem_map_of_mem (List.mem_append_right _ ?_))
    exact List.mem_of_mem_take hs
  others shard hs := by
    have among : shard ∈ shards := by simpa using hs
    obtain ⟨place, bound, rfl⟩ := List.mem_iff_getElem.1 among
    rcases Nat.lt_or_ge place l.data with inside | beyond
    · exact .inl (List.mem_take_iff_getElem.2 ⟨place, by omega, rfl⟩)
    · exact .inr (.inl (by rw [cut.isParity bound, decide_eq_true beyond]))

theorem reconstructFrom_gathered_blank : ∃ (l other : Layout) (shards : List Shard) (told : Event),
    l.data = 2 ∧ other.data = 3 ∧ l.create .blank = .ok (shards, told) ∧
      other.reconstructFrom (none :: (shards.reverse ++ shards).map some) (some 2) (some "f") =
        .ok .blank := by
  let l : Layout := ⟨2, 1, Nat.two_pos, Nat.one_pos⟩
  let other : Layout := ⟨3, 1, by decide, Nat.one_pos⟩
  have arises : Container.blank.Arises := .read Container.decode_blank
  obtain ⟨payload, encodes, short⟩ := Container.exists_encode_blank
  obtain ⟨created, back, -⟩ := reconstructFrom_gathered l other .blank payload arises encodes
  obtain ⟨shards, told, creates⟩ := created.2 (l.sliceFits_of_lt short)
  have cut := isCut_of_cut ((create_eq_ok_iff encodes).1 creates).1
  exact ⟨l, other, shards, told, rfl, rfl, creates, (back shards told creates _ cut.gathered_twice).2⟩

def halfSecond : DateTime :=
  { DateTime.epoch with offset := Offset.of? 500000 }

/-- A file that is sealed half a second from universal time comes back from its shards as sealed in
universal time. -/
theorem reconstructFrom_halfSecond : ∃ (e : Container.Encryptor) (c : Container)
    (left : NonceSupply) (payload : Bytes) (l : Layout) (shards : List Shard) (told : Event),
    e.encryptBy .backward [7] "f" (.counting 0 true) halfSecond = .ok (c, left) ∧
      c.encode = .ok payload ∧ l.create c = .ok (shards, told) ∧
      l.Gathered c.fileId shards (none :: (shards.reverse ++ shards).map some) ∧
      l.reconstructFrom (none :: (shards.reverse ++ shards).map some) none (some c.fileId) ≠
        .ok c := by
  have scalar : Text.isScalar "f" = true := by decide
  obtain ⟨key, hkey⟩ := Container.Encryptor.least.exists_keyFor rfl scalar
    (show ([7] : Bytes).length ≤ Container.maxFileSize by decide)
  obtain ⟨chunks, left, hs, encrypts⟩ :=
    Container.Encryptor.exists_encryptBy .backward (.counting 0 true) halfSecond hkey
  obtain ⟨payload, encodes, size⟩ := Container.encode_assemble halfSecond scalar hs (by decide)
    (Container.headerFits_of_length_le (by decide) (by decide) (by decide) (by decide))
  let l : Layout := ⟨2, 1, Nat.two_pos, Nat.one_pos⟩
  have short : payload.length < 0x10000000 := by
    rw [size]
    exact Container.Encryptor.containerSize_lt (by decide) (by decide) (by decide) (by decide)
  obtain ⟨shards, told, creates, hcut⟩ := exists_create encodes (l.sliceFits_of_lt short)
  have cut := isCut_of_cut hcut
  have gathered := cut.gathered_twice
  refine ⟨.least, _, left, payload, l, shards, told, encrypts, encodes, creates, gathered, ?_⟩
  rw [gathered.reconstructFrom_eq cut,
    Container.decode_of_encode (Container.Arises.encrypted encrypts).sound encodes]
  intro same
  have whole := Container.readBack_eq_iff.1 (Except.ok.inj same) _ rfl
  revert whole
  decide

end Layout

end ShardVault
