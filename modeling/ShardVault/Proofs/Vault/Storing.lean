import ShardVault.Proofs.Catalogue.FileId
import ShardVault.Proofs.Container.Sizes
import ShardVault.Proofs.Vault.Records

namespace ShardVault

namespace Store

variable {s s' : Store} {shards : List Shard}

theorem writeShards_of_room (hs : ∀ shard ∈ shards, shard.id.isScalar = true ∧
    ∃ bs, shard.encode = .ok bs) (hr : s.room = none) :
    ∃ s', s.writeShards shards = (.ok (), s') ∧ s'.room = none := by
  induction shards generalizing s with
  | nil => exact ⟨s, rfl, hr⟩
  | cons shard shards ih =>
    obtain ⟨hid, bs, hbs⟩ := hs shard (by simp)
    obtain ⟨s₁, hput, hr₁⟩ := put_of_room hr hid bs
    have first : (shard.encode >>= s.put shard.id) = .ok s₁ := bind_eq_ok.2 ⟨bs, hbs, hput⟩
    obtain ⟨s', hw, hr'⟩ := ih (fun x hx ↦ hs x (by simp [hx])) hr₁
    exact ⟨s', by rw [writeShards, first]; exact hw, hr'⟩

theorem writeShards_of_full {room : Nat} (hs : ∀ shard ∈ shards, shard.id.isScalar = true ∧
    ∃ bs, shard.encode = .ok bs) (hr : s.room = some room) (hl : room < shards.length) :
    ∃ s', s.writeShards (shards.take room) = (.ok (), s') ∧
      s.writeShards shards = (.error .storeFull, s') := by
  induction shards generalizing s room with
  | nil => cases hl
  | cons shard shards ih =>
    obtain ⟨hid, bs, hbs⟩ := hs shard (by simp)
    cases room with
    | zero => exact ⟨s, rfl, by rw [writeShards, hbs, ok_bind, put_of_full hr]⟩
    | succ room =>
      have left : s.room ≠ some 0 := by
        rw [hr]
        simp
      obtain ⟨s₁, hput, hr₁⟩ := put_of_isScalar left hid bs
      have first : (shard.encode >>= s.put shard.id) = .ok s₁ := bind_eq_ok.2 ⟨bs, hbs, hput⟩
      obtain ⟨s', before, full⟩ := ih (fun x hx ↦ hs x (by simp [hx])) (hr₁.trans (hr ▸ rfl))
        (Nat.lt_of_succ_lt_succ hl)
      refine ⟨s', ?_, ?_⟩
      · rw [List.take_succ_cons, writeShards, first]
        exact before
      · rw [writeShards, first]
        exact full

theorem peek_writeShards_of_ne {key : Text} (hk : ∀ shard ∈ shards, shard.id ≠ key) :
    (s.writeShards shards).2.peek key = s.peek key := by
  refine writeShards_induct (P := fun x ↦ x.peek key = s.peek key) rfl
    ?_
  intro shard hs x x' bs hx hbs hput
  rw [peek_put hput, if_neg (Ne.symm (hk shard hs)), hx]

theorem peek_writeShards_other (s : Store) {l : Layout} {fileId other : Text} {payload : Bytes}
    (cut : l.IsCut fileId payload shards) (hne : other ≠ fileId) (i : Int) :
    (s.writeShards shards).2.peek (shardId other i) = s.peek (shardId other i) := by
  apply peek_writeShards_of_ne
  intro shard hs he
  obtain ⟨j, -, hj⟩ := cut.exists_id hs
  exact hne (shardId_inj.1 (hj.symm.trans he)).1.symm

theorem peek_writeShards (hd : (shards.map (·.id)).Nodup)
    (h : s.writeShards shards = (.ok (), s')) :
    ∀ shard ∈ shards, ∃ bs, shard.encode = .ok bs ∧ s'.peek shard.id = some bs := by
  induction shards generalizing s with
  | nil => exact fun _ hs ↦ nomatch hs
  | cons shard shards ih =>
    rw [List.map_cons, List.nodup_cons] at hd
    rw [writeShards] at h
    split at h
    · next s₁ hput =>
      obtain ⟨bs, hbs, hput⟩ := bind_eq_ok.1 hput
      refine List.forall_mem_cons.2 ⟨⟨bs, hbs, ?_⟩, ih hd.2 h⟩
      have later : (s₁.writeShards shards).2.peek shard.id = s₁.peek shard.id :=
        peek_writeShards_of_ne fun x hx he ↦ hd.1 (he ▸ List.mem_map_of_mem hx)
      rw [h] at later
      rw [later, peek_put hput, if_pos rfl]
    · cases h

theorem stored_writeShards {l : Layout} {fileId : Text} {payload : Bytes}
    (cut : l.IsCut fileId payload shards) (h : s.writeShards shards = (.ok (), s')) :
    ∀ shard ∈ shards, ∃ bs, s'.peek shard.id = some bs ∧ Shard.decode bs = .ok shard := by
  intro shard hs
  have distinct : (shards.map (·.id)).Nodup := cut.ids ▸ nodup_shardIds fileId _
  obtain ⟨bs, hbs, hp⟩ := peek_writeShards distinct h shard hs
  exact ⟨bs, hp, cut.decode_of_encode hs hbs⟩

theorem Sound.writeShards (hs : s.Sound) (hid : ∀ shard ∈ shards, shard.id.isScalar = true) :
    (s.writeShards shards).2.Sound :=
  writeShards_induct hs fun shard hm _ _ _ hx _ hput ↦ hx.put (hid shard hm) hput

end Store

/-- A file as it was uploaded, and the time at which its container was made. -/
structure StoredFile where
  data : Bytes
  name : Text
  folder : Option Text
  createdAt : DateTime
  sealedAt : DateTime

def StoredFile.metadata (f : StoredFile) (s : Settings) (fileId : Text) : Metadata :=
  s.metadataOf f.data f.name f.folder fileId f.createdAt
    (s.encryptor.containerSize f.data fileId f.sealedAt)

structure Vault.Roomy (v : Vault) : Prop where
  shards : v.shards.room = none
  metadata : v.metadata.room = none
  index : ∀ index, v.index = some index → index.room = none

/-- A file that is not too large, whose texts have no surrogates and whose name is accepted, and
whose container has a header that fits. -/
structure Settings.Admits (s : Settings) (data : Bytes) (name : Text) (folder : Option Text)
    (id : Text) (sealedAt : DateTime) : Prop where
  size : data.length ≤ Container.maxFileSize
  valid : TextRule.fileName.checkText name = .ok name
  name : name.isScalar = true
  folder : ∀ f ∈ folder, f.isScalar = true
  header : s.encryptor.HeaderFits data id sealedAt

/-- A file that is admitted and whose container can be cut. -/
structure Settings.Accepts (s : Settings) (data : Bytes) (name : Text) (folder : Option Text)
    (id : Text) (sealedAt : DateTime) : Prop extends s.Admits data name folder id sealedAt where
  slices : s.layout.SliceFits (s.encryptor.containerSize data id sealedAt)

structure Settings.Uploaded (s : Settings) (v : Vault) (f : StoredFile) (id : Text) (w : Vault) :
    Prop where
  shards : ∃ payload shards, s.layout.IsCut id payload shards ∧
    v.shards.writeShards shards = (.ok (), w.shards)
  metadata : v.metadata.put id (f.metadata s id).record = .ok w.metadata
  writable : (f.metadata s id).toJson.isWritable = true
  held : ∃ form, w.HoldsFile s id f.data form
  roomy : w.Roomy
  clock : w.clock = { v.clock with reads := v.clock.reads + 2 }

namespace Settings

variable {s : Settings} {v w : Vault} {f : StoredFile} {data : Bytes} {name id : Text}
  {folder : Option Text} {createdAt sealedAt : DateTime} {master : CipherKey}

theorem Uploaded.peek_metadata (h : s.Uploaded v f id w) :
    w.metadata.peek id = some (f.metadata s id).record :=
  (Store.peek_put h.metadata id).trans (if_pos rfl)

theorem Admits.run_upload_of_large (h : s.Admits data name folder id sealedAt)
    (hkey : s.encryptor.deriver.source = .fixed master)
    (hid : fileId data name createdAt = .ok id)
    (htime : v.clock.reading v.clock.reads = .ok createdAt)
    (hsealed : v.clock.reading (v.clock.reads + 1) = .ok sealedAt)
    (large : ¬ s.layout.SliceFits (s.encryptor.containerSize data id sealedAt)) :
    ∃ w, (s.upload data name folder).run v = (.error (.overflow .draw), w) ∧ v.SameStores w ∧
      w.clock = { v.clock with reads := v.clock.reads + 2 } := by
  have scalar := isScalar_of_fileId hid
  obtain ⟨key, hfor⟩ := s.encryptor.exists_keyFor hkey scalar h.size
  have sealed := s.encryptor.seal_sealed key data v.nonces
  have small : data.length < Nat.pow 10 19 :=
    Nat.lt_of_le_of_lt h.size (by decide : Container.maxFileSize < Nat.pow 10 19)
  obtain ⟨payload, hpayload, hlen⟩ :=
    Container.encode_assemble sealedAt scalar sealed small h.header
  rw [← hlen] at large
  have broken : s.layout.create
      (s.encryptor.assemble data id (s.encryptor.seal key data v.nonces).1 sealedAt) =
        .error (.overflow .draw) := by
    rw [Layout.create, hpayload, ok_bind, Layout.cut_eq, if_neg large, error_bind]
  have encrypt := run_encrypt (s := s)
    (v := { v with clock := { v.clock with reads := v.clock.reads + 1 } }) hfor hsealed
  refine ⟨{ v with
    clock := { v.clock with reads := v.clock.reads + 2 }
    nonces := (s.encryptor.seal key data v.nonces).2 }, ?_, sameStores_of_time v _ _, rfl⟩
  rw [run_upload_of_id h.valid htime hid, run_store_of_cut_error encrypt (run_cut_error broken)]

theorem Accepts.prepares (h : s.Accepts data name folder id sealedAt)
    (hkey : s.encryptor.deriver.source = .fixed master)
    (hid : fileId data name createdAt = .ok id)
    (htime : v.clock.reading v.clock.reads = .ok createdAt)
    (hsealed : v.clock.reading (v.clock.reads + 1) = .ok sealedAt) :
    ∃ p, s.Prepares v data name p ∧ p.id = id ∧ p.createdAt = createdAt ∧
      p.payload.length = s.encryptor.containerSize data id sealedAt ∧
      ∀ w : Vault, (∀ shard ∈ p.shards, ∃ bs, w.shards.peek shard.id = some bs ∧
        Shard.decode bs = .ok shard) → ∃ form, w.HoldsFile s id data form := by
  have scalar := isScalar_of_fileId hid
  obtain ⟨key, hfor⟩ := s.encryptor.exists_keyFor hkey scalar h.size
  have sealed := s.encryptor.seal_sealed key data v.nonces
  have small : data.length < Nat.pow 10 19 :=
    Nat.lt_of_le_of_lt h.size (by decide : Container.maxFileSize < Nat.pow 10 19)
  obtain ⟨payload, hpayload, hlen⟩ :=
    Container.encode_assemble sealedAt scalar sealed small h.header
  have hshards : s.layout.cut id payload = .ok (s.layout.shardsOf id payload) :=
    Layout.cut_eq_ok_iff.2 ⟨hlen ▸ h.slices, rfl⟩
  have prepares : s.Prepares v data name ⟨createdAt, sealedAt, id, key, payload, _⟩ :=
    ⟨h.valid, htime, hid, hfor, hsealed, hpayload, hshards⟩
  exact ⟨_, prepares, rfl, rfl, hlen, fun w hw ↦ ⟨_, prepares.holdsFile hw⟩⟩

theorem Prepares.exists_encode {p : Prepared} (h : s.Prepares v data name p)
    (htotal : s.layout.total < 0x100000000) :
    ∀ shard ∈ p.shards, shard.id.isScalar = true ∧ ∃ bs, shard.encode = .ok bs := by
  have idLength : (Utf8.encodeAll p.id).length < 0x10000 := by
    have := Utf8.length_encodeAll_le p.id
    rw [length_of_fileId h.id] at this
    omega
  intro shard hs
  exact ⟨h.isCut.isScalar_id h.isScalar_id shard hs,
    h.isCut.exists_encode h.isScalar_id idLength htotal hs⟩

theorem Accepts.encode_metadata (h : s.Accepts f.data f.name f.folder id f.sealedAt)
    (hid : id.isScalar = true) (htotal : s.layout.total < 0x100000000) :
    ((f.metadata s id).encode >>= Text.encode) = .ok (f.metadata s id).record := by
  have small : Container.maxFileSize < Nat.pow 10 11 := by decide
  have large : 0x10000000A + 37 * Nat.pow 10 11 < Nat.pow 10 20 := by decide
  have hsize := s.encryptor.containerSize_le f.data id f.sealedAt
  have header := h.header.length
  have hdata := h.size
  exact encode_metadataOf hid h.name h.folder (by omega) (by omega) (by omega)

theorem Accepts.run_upload (h : s.Accepts f.data f.name f.folder id f.sealedAt) (hroom : v.Roomy)
    (hkey : s.encryptor.deriver.source = .fixed master) (htotal : s.layout.total < 0x100000000)
    (hid : fileId f.data f.name f.createdAt = .ok id)
    (htime : v.clock.reading v.clock.reads = .ok f.createdAt)
    (hsealed : v.clock.reading (v.clock.reads + 1) = .ok f.sealedAt) :
    ∃ w, (s.upload f.data f.name f.folder).run v = (.ok (f.metadata s id), w) ∧
      s.Uploaded v f id w := by
  have scalar := isScalar_of_fileId hid
  obtain ⟨p, hp, rfl, htime, hlen, holds⟩ := h.prepares hkey hid htime hsealed
  have hm : p.metadata s f.data f.name f.folder = f.metadata s p.id := by
    rw [Prepared.metadata, hlen, htime]
    rfl
  obtain ⟨shards, hwrite, hroomShards⟩ :=
    Store.writeShards_of_room (hp.exists_encode htotal) hroom.shards
  have record := h.encode_metadata scalar htotal
  obtain ⟨metadata, hput, hroomMetadata⟩ :=
    Store.put_of_room hroom.metadata scalar (f.metadata s p.id).record
  obtain ⟨bs, -, save⟩ := Metadata.save_listing_of_encode record
  obtain ⟨index, hindex, hroomIndex⟩ := Action.run_onIndex_ok
    (fun index ↦ Index.save index (f.metadata s p.id).listing)
    (v := { v.prepared s f.data p with shards, metadata }) (P := fun i ↦ i.room = none)
    fun i hi ↦ save i ▸ Store.put_of_room (hroom.index i hi) scalar bs
  refine ⟨{ v.prepared s f.data p with shards, metadata, index }, ?_, ⟨_, _, hp.isCut, hwrite⟩, hput,
    (Metadata.encode_eq_record.1 record).1, holds _ (Store.stored_writeShards hp.isCut hwrite),
    ⟨hroomShards, hroomMetadata, hroomIndex⟩, rfl⟩
  rw [hp.run_upload, Settings.write, hm]
  simp only [Vault.prepared, hwrite, record, ok_bind, hput]
  rw [Action.run_bind]
  simp only [Vault.prepared] at hindex
  rw [hindex]
  rfl

theorem Accepts.download_run_upload (h : s.Accepts f.data f.name f.folder id f.sealedAt)
    (hroom : v.Roomy) (hkey : s.encryptor.deriver.source = .fixed master)
    (htotal : s.layout.total < 0x100000000) (whole : f.createdAt.IsWhole)
    (hid : fileId f.data f.name f.createdAt = .ok id)
    (htime : v.clock.reading v.clock.reads = .ok f.createdAt)
    (hsealed : v.clock.reading (v.clock.reads + 1) = .ok f.sealedAt) :
    ∃ m w, (s.upload f.data f.name f.folder).run v = (.ok m, w) ∧
      (s.download m.fileId).run w = (.ok f.data, w) := by
  have scalar := isScalar_of_fileId hid
  obtain ⟨w, hrun, uploaded⟩ := h.run_upload hroom hkey htotal hid htime hsealed
  obtain ⟨form, holds⟩ := uploaded.held
  have found := metadataOf_of_record scalar whole uploaded.peek_metadata uploaded.writable
  exact ⟨_, w, hrun, run_download scalar found holds⟩

theorem accepts_of_length_le (hc : s.encryptor.chunkSize < Nat.pow 10 19)
    (hd : data.length ≤ 50000) (hvalid : TextRule.fileName.checkText name = .ok name)
    (hname : name.isScalar = true) (hfolder : ∀ f ∈ folder, f.isScalar = true)
    (hid : fileId data name createdAt = .ok id) (ht : sealedAt.shown.length ≤ 1000) :
    s.Accepts data name folder id sealedAt := by
  have large : 50000 ≤ Container.maxFileSize := by decide
  have short : id.length ≤ 1000 := by
    rw [length_of_fileId hid]
    decide
  exact ⟨⟨by omega, hvalid, hname, hfolder,
    Container.headerFits_of_length_le hc (by omega) short ht⟩,
    s.layout.sliceFits_of_lt (Container.Encryptor.containerSize_lt hc hd short ht)⟩

def least : Settings where
  encryptor := ⟨⟨.fixed ⟨List.replicate 32 0, rfl⟩, defaultKeyInfo⟩, 1, Nat.one_pos⟩
  layout := ⟨1, 1, Nat.one_pos, Nat.one_pos⟩

end Settings

/-- A vault of empty stores in memory, whose clock always shows the same time. -/
def Vault.fresh (time : DateTime) : Vault :=
  ⟨.empty, .empty, none, ⟨fun _ ↦ .ok time, 0⟩, .counting 0 true⟩

theorem Vault.roomy_fresh (time : DateTime) : (fresh time).Roomy := by
  refine ⟨rfl, rfl, ?_⟩
  intro index hi
  cases hi

/-- Settings with the cipher of the least ones accept a file of at most fifty thousand bytes. -/
theorem Settings.accepts_of_least {s : Settings} {data : Bytes} {name id : Text}
    {createdAt sealedAt : DateTime} (hs : s.encryptor = least.encryptor)
    (hd : data.length ≤ 50000) (hvalid : TextRule.fileName.checkText name = .ok name)
    (hname : name.isScalar = true) (hid : fileId data name createdAt = .ok id)
    (ht : sealedAt.shown.length ≤ 1000) : s.Accepts data name none id sealedAt := by
  have small : s.encryptor.chunkSize < Nat.pow 10 19 := by
    rw [hs]
    decide
  exact accepts_of_length_le small hd hvalid hname (by simp) hid ht

theorem Settings.download_run_upload_least (data : Bytes) (hd : data.length ≤ 50000) :
    ∃ m w, (least.upload data "a" none).run (.fresh .epoch) = (.ok m, w) ∧
      (least.download m.fileId).run w = (.ok data, w) := by
  obtain ⟨id, hid⟩ := exists_fileId data (show Text.isScalar "a" = true by decide) .epoch
  have accepts : least.Accepts data "a" none id .epoch :=
    accepts_of_length_le (by decide) hd (by decide) (by decide) nofun hid (by decide)
  exact accepts.download_run_upload (f := ⟨data, "a", none, .epoch, .epoch⟩) ⟨rfl, rfl, nofun⟩ rfl
    (by decide) DateTime.isWhole_epoch hid rfl rfl

end ShardVault
