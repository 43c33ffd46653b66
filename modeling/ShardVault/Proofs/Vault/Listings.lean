import ShardVault.Proofs.Store.Order
import ShardVault.Proofs.Vault.Removal
import ShardVault.Proofs.Vault.Times
import ShardVault.Proofs.Vault.Totals

namespace ShardVault

/-- A file is put into the store of metadata and into the file index. -/
structure Metadata.Put (m : Metadata) (metadata metadata' index index' : Store) : Prop where
  record : ∃ bs, metadata.put m.fileId bs = .ok metadata' ∧ decode (.bytes bs) = .ok m.readBack
  listing : ∃ bs, index.put m.fileId bs = .ok index' ∧
    IndexRecord.decode (.bytes bs) = .ok m.readBack.listing

/-- A file has its records in the store of metadata and in the file index. -/
structure Metadata.Held (m : Metadata) (metadata index : Store) (key : Text) : Prop where
  id : m.fileId = key
  record : ∃ bs, metadata.peek key = some bs ∧ decode (.bytes bs) = .ok m.readBack
  listing : ∃ bs, index.peek key = some bs ∧
    IndexRecord.decode (.bytes bs) = .ok m.readBack.listing

namespace Metadata

variable {m : Metadata} {metadata metadata' index index' : Store} {key : Text}

theorem Held.congr (h : m.Held metadata index key)
    (metadata_eq : metadata'.peek key = metadata.peek key)
    (index_eq : index'.peek key = index.peek key) : m.Held metadata' index' key :=
  ⟨h.id, metadata_eq ▸ h.record, index_eq ▸ h.listing⟩

theorem Put.held (h : m.Put metadata metadata' index index') : m.Held metadata' index' m.fileId := by
  obtain ⟨⟨bs, hput, hdecode⟩, bs', hput', hdecode'⟩ := h
  exact ⟨rfl, ⟨bs, (Store.peek_put hput _).trans (if_pos rfl), hdecode⟩,
    bs', (Store.peek_put hput' _).trans (if_pos rfl), hdecode'⟩

end Metadata

/-- The store of metadata and the file index hold the records of the same files, and have them in the
same order. All times of the files, and all that the clock will show, are of one kind. -/
structure Vault.Catalogues (v : Vault) (aware : Bool) (index : Store) (files : Entries Metadata) :
    Prop where
  listed : v.index = some index
  metadataRoom : v.metadata.room = none
  indexRoom : index.room = none
  order : v.metadata.SameOrder index
  sound : v.metadata.Sound
  distinct : files.keys.Nodup
  keys : ∀ key, key ∈ v.metadata.keys ↔ key ∈ files.keys
  held : ∀ key m, files.get? key = some m → m.Held v.metadata index key
  time : ∀ key m, files.get? key = some m → m.createdAt.isAware = aware
  clock : ∀ n time, v.clock.reading n = .ok time → time.isAware = aware

namespace Vault.Catalogues

variable {v w : Vault} {aware : Bool} {index index' : Store} {files : Entries Metadata}
  {m : Metadata}

theorem of_eq (h : v.Catalogues aware index files) (metadata : w.metadata = v.metadata)
    (listed : w.index = v.index) (clock : w.clock.reading = v.clock.reading) :
    w.Catalogues aware index files where
  listed := listed.trans h.listed
  metadataRoom := metadata ▸ h.metadataRoom
  indexRoom := h.indexRoom
  order := metadata ▸ h.order
  sound := metadata ▸ h.sound
  distinct := h.distinct
  keys := metadata ▸ h.keys
  held := metadata ▸ h.held
  time := h.time
  clock := clock ▸ h.clock

theorem put (h : v.Catalogues aware index files) (hid : m.fileId.isScalar = true)
    (added : m.Put v.metadata w.metadata index index') (listed : w.index = some index')
    (time : m.createdAt.isAware = aware) (clock : w.clock.reading = v.clock.reading) :
    w.Catalogues aware index' (files.put m.fileId m) := by
  have own := added.held
  obtain ⟨⟨bs, hput, -⟩, bs', hput', -⟩ := added
  obtain ⟨-, room, -⟩ := Store.put_eq_ok hput
  obtain ⟨-, room', -⟩ := Store.put_eq_ok hput'
  refine ⟨listed, by rw [room, h.metadataRoom]; rfl, by rw [room', h.indexRoom]; rfl,
    h.order.put hput hput', h.sound.put hid hput, Entries.nodup_keys_put h.distinct _ _, ?_, ?_, ?_,
    clock ▸ h.clock⟩
  · intro key
    rw [Store.mem_keys_put hput, h.keys, Entries.mem_keys_put]
  · intro key f hf
    rw [Entries.get?_put] at hf
    split at hf
    · next same =>
      obtain rfl := Option.some.inj hf
      exact same ▸ own
    · next ne =>
      exact (h.held key f hf).congr ((Store.peek_put hput key).trans (if_neg ne))
        ((Store.peek_put hput' key).trans (if_neg ne))
  · intro key f hf
    rw [Entries.get?_put] at hf
    split at hf
    · obtain rfl := Option.some.inj hf
      exact time
    · exact h.time key f hf

theorem without (h : v.Catalogues aware index files) (fileId : Text) :
    (v.without fileId).Catalogues aware (index.drop (· == fileId)) (files.erase fileId) := by
  have before {key : Text} {f : Metadata} (hf : (files.erase fileId).get? key = some f) :
      key ≠ fileId ∧ files.get? key = some f := by
    rw [Entries.get?_erase] at hf
    split at hf
    · cases hf
    · next ne => exact ⟨ne, hf⟩
  have kept {store : Store} {key : Text} (ne : key ≠ fileId) :
      (store.drop (· == fileId)).peek key = store.peek key :=
    (store.peek_drop _ key).trans (if_neg (by simpa using ne))
  refine ⟨by rw [Vault.without, h.listed, Option.map_some], h.metadataRoom, h.indexRoom,
    h.order.drop _, h.sound.drop _, Entries.nodup_keys_erase h.distinct fileId, ?_, ?_,
    fun key f hf ↦ h.time key f (before hf).2, h.clock⟩
  · intro key
    rw [Vault.without, Store.mem_keys_drop, h.keys, Entries.mem_keys_erase, beq_eq_false_iff_ne]
  · intro key f hf
    obtain ⟨ne, hf⟩ := before hf
    exact (h.held key f hf).congr (kept ne) (kept ne)

end Vault.Catalogues

namespace Settings

variable {s : Settings} {v w : Vault} {data : Bytes} {name fileId : Text} {folder : Option Text}
  {m : Metadata} {failure : Failure} {index : Store}

theorem put_of_upload (h : (s.upload data name folder).run v = (.ok m, w))
    (listed : v.index = some index) : ∃ index', w.index = some index' ∧
      m.Put v.metadata w.metadata index index' ∧ m.fileId.isScalar = true ∧
      v.clock.reading v.clock.reads = .ok m.createdAt := by
  have outcome := s.upload_outcome v data name folder
  rw [h] at outcome
  cases outcome with
  | @stored p bs answer w prepared shards record metadata answered =>
    obtain rfl := answered m rfl
    obtain ⟨bs', hdecode', save⟩ := Metadata.save_listing_of_encode record
    obtain ⟨writable, -, rfl⟩ := Metadata.encode_eq_record.1 record
    have run := prepared.run_upload folder
    rw [h, Settings.write] at run
    simp only [Vault.prepared, shards, record, ok_bind, metadata] at run
    rw [run_listing_eq] at run
    simp only [listed, save] at run
    rcases hput : index.put (p.metadata s data name folder).fileId bs' with failure | index'
    · rw [hput] at run
      cases run
    · rw [hput] at run
      exact ⟨index', congrArg (·.2.index) run, ⟨⟨_, metadata, decode_record writable⟩,
        bs', hput, hdecode'⟩, prepared.isScalar_id, prepared.createdAt⟩

/-- An upload that fails leaves both stores as they are, if there is no limit to the file index. -/
theorem eq_of_upload_error (h : (s.upload data name folder).run v = (.error failure, w))
    (listed : v.index = some index) (room : index.room = none) :
    w.metadata = v.metadata ∧ w.index = v.index := by
  rcases stops_or_unlisted h with ⟨written, stops⟩ | ⟨p, unlisted, -⟩
  · obtain ⟨w', hrun, -, metadata, index⟩ := stops.run_upload
    obtain rfl : w' = w := congrArg Prod.snd (hrun.symm.trans h)
    exact ⟨metadata, index⟩
  · obtain ⟨index', listed', failed⟩ := unlisted.listing
    obtain rfl := Option.some.inj (listed.symm.trans listed')
    obtain ⟨bs, -, save⟩ := Metadata.save_listing_of_encode unlisted.record
    obtain ⟨_, hput, -⟩ := Store.put_of_room room unlisted.prepared.isScalar_id bs
    cases failed.symm.trans ((save index).trans hput)

/-- The vaults that come of fresh stores by uploads and deletions, and the files that are there then.
The store of metadata and the file index are of one kind and without limits, and the clock shows only
times with a distance from universal time or only times without. -/
inductive History (s : Settings) (aware : Bool) : Entries Metadata → Vault → Prop
  | fresh (v : Vault) {shelf : Shelf} (empty : shelf.entries = []) (shards : v.shards.entries = [])
      (metadata : v.metadata = ⟨shelf, none⟩) (index : v.index = some ⟨shelf, none⟩)
      (clock : ∀ n time, v.clock.reading n = .ok time → time.isAware = aware) :
      History s aware [] v
  | uploaded {files : Entries Metadata} {v w : Vault} {m : Metadata} (source : KeySource)
      (data : Bytes) (name : Text) (folder : Option Text) (before : History s aware files v)
      (run : ((s.withSource source).upload data name folder).run v = (.ok m, w)) :
      History s aware (files.put m.fileId m) w
  | refused {files : Entries Metadata} {v w : Vault} {failure : Failure} (source : KeySource)
      (data : Bytes) (name : Text) (folder : Option Text) (before : History s aware files v)
      (run : ((s.withSource source).upload data name folder).run v = (.error failure, w)) :
      History s aware files w
  | deleted {files : Entries Metadata} {v w : Vault} {there : Bool} (fileId : Text)
      (before : History s aware files v) (run : (deleteFile fileId).run v = (.ok there, w)) :
      History s aware (files.erase fileId) w
  | undeleted {files : Entries Metadata} {v w : Vault} {failure : Failure} (fileId : Text)
      (before : History s aware files v) (run : (deleteFile fileId).run v = (.error failure, w)) :
      History s aware files w

namespace History

variable {aware : Bool} {files : Entries Metadata}

theorem visited (h : s.History aware files v) : ∃ ids, s.Visited ids v := by
  induction h with
  | fresh v empty shards metadata index clock =>
    refine ⟨[], .empty v shards (by rw [metadata]; exact empty) fun store hs ↦ ?_⟩
    obtain rfl := Option.some.inj (index.symm.trans hs)
    exact empty
  | @uploaded files v w _ source data name folder before run ih
  | @refused files v w _ source data name folder before run ih =>
    obtain ⟨ids, ih⟩ := ih
    obtain rfl : ((s.withSource source).upload data name folder v).vault = w :=
      congrArg Prod.snd run
    exact ⟨_, ih.upload source data name folder⟩
  | @deleted files v w _ fileId before run ih | @undeleted files v w _ fileId before run ih =>
    obtain ⟨ids, ih⟩ := ih
    obtain rfl : (deleteFile fileId v).vault = w := congrArg Prod.snd run
    exact ⟨ids, ih.delete fileId⟩

theorem catalogues (h : s.History aware files v) : ∃ index, v.Catalogues aware index files := by
  induction h with
  | @fresh v shelf empty shards metadata index clock =>
    have none (key : Text) (m : Metadata) (hm : Entries.get? [] key = some m) : False := nomatch hm
    refine ⟨⟨shelf, .none⟩, index, by rw [metadata], rfl, metadata ▸ ⟨rfl, rfl⟩,
      .of_entries_eq_nil (by rw [metadata]; exact empty), List.nodup_nil, ?_,
      fun key m hm ↦ (none key m hm).elim, fun key m hm ↦ (none key m hm).elim, clock⟩
    intro key
    rw [metadata, Store.keys, Store.entries, empty]
    rfl
  | @uploaded files v w m source data name folder before run ih =>
    obtain ⟨index, ih⟩ := ih
    obtain ⟨index', listed, added, scalar, time⟩ := put_of_upload run ih.listed
    have clock := Action.KeepsTimes.upload (s.withSource source) data name folder v
    rw [run] at clock
    exact ⟨index', ih.put scalar added listed (ih.clock _ _ time) clock⟩
  | @refused files v w failure source data name folder before run ih =>
    obtain ⟨index, ih⟩ := ih
    obtain ⟨metadata, same⟩ := eq_of_upload_error run ih.listed ih.indexRoom
    have clock := Action.KeepsTimes.upload (s.withSource source) data name folder v
    rw [run] at clock
    exact ⟨index, ih.of_eq metadata same clock⟩
  | @deleted files v w there fileId before run ih =>
    obtain ⟨index, ih⟩ := ih
    obtain ⟨ids, visited⟩ := before.visited
    obtain ⟨-, after⟩ := Prod.mk.inj (run.symm.trans (visited.onlyHolds.run_deleteFile .same))
    exact ⟨_, after ▸ ih.without fileId⟩
  | @undeleted files v w failure fileId before run ih =>
    obtain ⟨index, ih⟩ := ih
    obtain ⟨ids, visited⟩ := before.visited
    obtain ⟨answer, after⟩ := Prod.mk.inj (run.symm.trans (visited.onlyHolds.run_deleteFile .same))
    -- Only an id with a surrogate cannot be looked up, and there is no file with such an id.
    have absent : fileId ∉ files.keys := by
      intro hk
      rw [v.admits_of_isScalar (ih.sound.scalar fileId ((ih.keys fileId).2 hk))] at answer
      cases answer
    have without := ih.without fileId
    rw [Entries.erase_of_not_mem absent] at without
    exact ⟨_, after ▸ without⟩

end History

end Settings

/-- The records of files as they are read, in the order of the store of metadata. -/
def Vault.recordsOf (v : Vault) (files : Entries Metadata) : List Metadata :=
  v.metadata.keys.filterMap fun key ↦ (files.get? key).map (·.readBack)

namespace Vault.Catalogues

variable {v : Vault} {aware : Bool} {index : Store} {files : Entries Metadata}

theorem exists_held (h : v.Catalogues aware index files) {key : Text}
    (hk : key ∈ v.metadata.keys) :
    ∃ m, files.get? key = some m ∧ m.Held v.metadata index key ∧ key.isScalar = true := by
  obtain ⟨m, hm⟩ := Entries.mem_keys_iff.1 ((h.keys key).1 hk)
  exact ⟨m, hm, h.held key m hm, h.sound.scalar key hk⟩

theorem metadataOf (h : v.Catalogues aware index files) {key : Text}
    (hk : key ∈ v.metadata.keys) :
    ∃ m, v.metadataOf key = .ok m ∧ (files.get? key).map (·.readBack) = some m := by
  obtain ⟨m, hm, ⟨-, ⟨bs, hp, hd⟩, -⟩, scalar⟩ := h.exists_held hk
  refine ⟨m.readBack, ?_, by rw [hm, Option.map_some]⟩
  rw [Vault.metadataOf, Store.get_of_isScalar scalar, hp, ok_bind]
  exact hd

theorem find (h : v.Catalogues aware index files) {key : Text} (hk : key ∈ v.metadata.keys) :
    ∃ r, Index.find index key = .ok r ∧
      ((files.get? key).map (·.readBack)).map (fun m ↦ some m.listing) = some r := by
  obtain ⟨m, hm, ⟨-, -, bs, hp, hd⟩, scalar⟩ := h.exists_held hk
  refine ⟨some m.readBack.listing, ?_, by rw [hm, Option.map_some, Option.map_some]⟩
  rw [Index.find, Store.get_of_isScalar scalar, hp, ok_bind]
  exact congrArg (Except.map some) hd

theorem perm_recordsOf (h : v.Catalogues aware index files) :
    (v.recordsOf files).Perm (files.map (·.2.readBack)) := by
  have keys : v.metadata.keys.Perm files.keys :=
    (List.perm_ext_iff_of_nodup h.sound.distinct h.distinct).2 h.keys
  exact Entries.perm_filterMap_get? keys h.distinct fun _ m ↦ m.readBack

theorem ids_recordsOf (h : v.Catalogues aware index files) :
    (v.recordsOf files).map (·.fileId) = v.metadata.keys := by
  rw [recordsOf, List.map_filterMap]
  refine (List.filterMap_congr fun key hk ↦ ?_).trans List.filterMap_some
  obtain ⟨m, hm, held, -⟩ := h.exists_held hk
  rw [hm, Option.map_some, Option.map_some]
  exact congrArg some held.id

theorem time_recordsOf (h : v.Catalogues aware index files) {m : Metadata}
    (hm : m ∈ v.recordsOf files) : m.createdAt.isAware = aware := by
  obtain ⟨key, -, hm⟩ := List.mem_filterMap.1 hm
  obtain ⟨f, hf, rfl⟩ := Option.map_eq_some_iff.1 hm
  exact (Option.isSome_map ..).trans (h.time key f hf)

theorem newestFirst_recordsOf (h : v.Catalogues aware index files) {wanted : List Metadata}
    (some_of : wanted.Sublist (v.recordsOf files)) :
    ∃ ms, DateTime.newestFirst (·.createdAt) wanted = .ok ms ∧ ms.Perm wanted := by
  have times : ∀ time ∈ wanted.map (·.createdAt), time.isAware = aware :=
    List.forall_mem_map.2 fun m hm ↦ h.time_recordsOf (some_of.subset hm)
  exact DateTime.newestFirst_of_comparable (DateTime.comparable_of_isAware times)

theorem list_index_eq (h : v.Catalogues aware index files) (folder : Option Text) :
    Index.list index folder = (v.list folder).map (List.map Metadata.listing) := by
  have found : index.keys.mapM (Index.find index) =
      .ok ((v.recordsOf files).map fun m ↦ some m.listing) := by
    rw [← h.order.keys, recordsOf, List.map_filterMap]
    exact mapM_eq_ok_filterMap fun key hk ↦ h.find hk
  have records : ((v.recordsOf files).map fun m ↦ some m.listing).filterMap (fun r ↦ r) =
      (v.recordsOf files).map Metadata.listing := by
    rw [List.filterMap_map, ← List.filterMap_eq_map]
    rfl
  rw [Index.list, found, ok_bind, records, List.filter_map, DateTime.newestFirst_map,
    v.list_eq (fun key hk ↦ h.metadataOf hk) folder]
  rfl

end Vault.Catalogues

namespace Settings

variable {s : Settings} {v : Vault} {aware : Bool} {files : Entries Metadata}

/-- After any uploads and deletions both listings of a folder, or of all folders, are of the same
files in the same order: those that are there now, each once, the latest first and those of one moment
in the order of the keys in the store. -/
theorem History.listings (h : s.History aware files v) (folder : Option Text) :
    ∃ ms, v.list folder = .ok ms ∧
      v.index.map (Index.list · folder) = some (.ok (ms.map Metadata.listing)) ∧
      ms.Perm ((files.map (·.2.readBack)).filter fun m ↦ folder.all fun f ↦ m.folderId == some f) ∧
      (ms.map (·.fileId)).Nodup ∧
      (ms.Pairwise fun a b ↦ b.createdAt.instant ≤ a.createdAt.instant) ∧
      ∀ moment, ((ms.filter fun m ↦ m.createdAt.instant = moment).map (·.fileId)).Sublist
        v.metadata.keys := by
  obtain ⟨index, catalogues⟩ := h.catalogues
  obtain ⟨wanted, hwanted⟩ : ∃ wanted, (v.recordsOf files).filter
    (fun m ↦ folder.all fun f ↦ m.folderId == some f) = wanted := ⟨_, rfl⟩
  have some_of : wanted.Sublist (v.recordsOf files) := hwanted ▸ List.filter_sublist
  have ids : (wanted.map (·.fileId)).Sublist v.metadata.keys :=
    catalogues.ids_recordsOf ▸ some_of.map _
  obtain ⟨ms, sorted, perm⟩ := catalogues.newestFirst_recordsOf some_of
  have list : v.list folder = .ok ms := by
    rw [← sorted, ← hwanted]
    exact v.list_eq (fun key hk ↦ catalogues.metadataOf hk) folder
  refine ⟨ms, list, ?_, ?_, ?_, DateTime.pairwise_newestFirst sorted, fun moment ↦ ?_⟩
  · rw [catalogues.listed, Option.map_some, catalogues.list_index_eq, list, map_ok]
  · exact perm.trans (hwanted ▸ catalogues.perm_recordsOf.filter _)
  · exact (perm.map _).nodup_iff.2 (ids.nodup catalogues.sound.distinct)
  · rw [DateTime.filter_newestFirst sorted]
    exact (List.filter_sublist.map _).trans ids

theorem History.exists_uploaded (h : least.History true files v) (folder : Text) (roomy : v.Roomy)
    (still : v.clock.reading = fun _ ↦ .ok .epoch) {name id : Text}
    (valid : TextRule.fileName.checkText name = .ok name) (scalar : name.isScalar = true)
    (inFolder : folder.isScalar = true) (hid : fileId [7] name .epoch = .ok id) :
    ∃ w, least.History true (files.put id
        (StoredFile.metadata ⟨[7], name, some folder, .epoch, .epoch⟩ least id)) w ∧
      w.Roomy ∧ w.clock.reading = fun _ ↦ .ok .epoch := by
  have accepts : least.Accepts [7] name (some folder) id .epoch :=
    accepts_of_length_le (by decide) (by decide) valid scalar
      (fun _ hf ↦ Option.some.inj hf ▸ inFolder) hid (by decide)
  obtain ⟨w, run, uploaded⟩ := accepts.run_upload
    (f := ⟨[7], name, some folder, .epoch, .epoch⟩) roomy rfl (by decide) hid (by rw [still])
    (by rw [still])
  exact ⟨w, h.uploaded least.encryptor.deriver.source [7] name (some folder) run, uploaded.roomy,
    by rw [uploaded.clock, still]⟩

theorem History.listings_least : ∃ (v : Vault) (m m' : Metadata) (ms : List Metadata),
    least.History true [(m.fileId, m), (m'.fileId, m')] v ∧ m.createdAt = m'.createdAt ∧
      m.folderId = some "g" ∧ m'.folderId = some "f" ∧ v.list none = .ok ms ∧
      v.index.map (Index.list · none) = some (.ok (ms.map Metadata.listing)) ∧
      ms.Perm [m, m'] ∧ (ms.map (·.fileId)).Nodup ∧
      (ms.map (·.fileId)).Sublist v.metadata.keys := by
  have hid : fileId [7] "a" .epoch = .ok (Sha256.hex (hashedBytes [7] "a" .epoch)) :=
    fileId_eq_ok_iff.2 ⟨by decide, rfl⟩
  have hid' : fileId [7] "b" .epoch = .ok (Sha256.hex (hashedBytes [7] "b" .epoch)) :=
    fileId_eq_ok_iff.2 ⟨by decide, rfl⟩
  have ne : Sha256.hex (hashedBytes [7] "b" .epoch) ≠ Sha256.hex (hashedBytes [7] "a" .epoch) := by
    decide +kernel
  generalize Sha256.hex (hashedBytes [7] "a" .epoch) = id at hid ne
  generalize Sha256.hex (hashedBytes [7] "b" .epoch) = id' at hid' ne
  have fresh : least.History true [] { Vault.fresh .epoch with index := some .empty } :=
    .fresh _ rfl rfl rfl rfl fun _ _ ht ↦ Except.ok.inj ht ▸ rfl
  obtain ⟨v, one, roomy, still⟩ := fresh.exists_uploaded "f"
    ⟨rfl, rfl, fun index hi ↦ Option.some.inj hi ▸ rfl⟩ rfl rfl (by decide) (by decide) hid
  obtain ⟨v, two, roomy, still⟩ :=
    one.exists_uploaded "f" roomy still rfl (by decide) (by decide) hid'
  obtain ⟨v, three, -, -⟩ :=
    two.exists_uploaded "g" roomy still rfl (by decide) (by decide) hid
  have files (m₁ m₂ m₃ : Metadata) :
      ((Entries.put [] id m₁).put id' m₂).put id m₃ = [(id, m₃), (id', m₂)] := by
    simp [Entries.put, Entries.has, ne, ne.symm]
  rw [files] at three
  obtain ⟨ms, list, listed, perm, distinct, -, ties⟩ := History.listings three none
  have same (name id : Text) (folder : Option Text) :
      (StoredFile.metadata ⟨[7], name, folder, .epoch, .epoch⟩ least id).readBack =
        StoredFile.metadata ⟨[7], name, folder, .epoch, .epoch⟩ least id :=
    Metadata.readBack_of_isWhole DateTime.isWhole_epoch
  have all (ms : List Metadata) :
      ms.filter (fun m ↦ (none : Option Text).all fun f ↦ m.folderId == some f) = ms :=
    List.filter_eq_self.2 fun _ _ ↦ rfl
  rw [all, List.map_cons, List.map_singleton, same, same] at perm
  have moment : ∀ m ∈ ms, m.createdAt = .epoch := by
    intro m hm
    rcases List.mem_pair.1 (perm.mem_iff.1 hm) with rfl | rfl
    · rfl
    · rfl
  have ties := ties DateTime.epoch.instant
  rw [List.filter_eq_self.2 fun m hm ↦ decide_eq_true (congrArg _ (moment m hm))] at ties
  refine ⟨v, _, _, ms, three, ?_, ?_, ?_, list, listed, perm, distinct, ties⟩
  · rfl
  · rfl
  · rfl

end Settings

end ShardVault
