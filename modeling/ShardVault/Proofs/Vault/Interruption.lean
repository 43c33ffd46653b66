import ShardVault.Proofs.Vault.Intact
import ShardVault.Proofs.Vault.Lawful

namespace ShardVault

namespace Store

variable {s s' : Store} {shards written : List Shard} {failure : Failure}

theorem writeShards_eq_error (h : s.writeShards shards = (.error failure, s')) :
    ∃ written shard rest, shards = written ++ shard :: rest ∧
      s.writeShards written = (.ok (), s') ∧
      (shard.encode >>= s'.put shard.id) = .error failure := by
  induction shards generalizing s with
  | nil => cases h
  | cons first shards ih =>
    rw [writeShards] at h
    split at h
    · next s₁ hput =>
      obtain ⟨written, shard, rest, rfl, before, broken⟩ := ih h
      refine ⟨first :: written, shard, rest, rfl, ?_, broken⟩
      rw [writeShards, hput]
      exact before
    · next failure' hput =>
      obtain ⟨he, rfl⟩ := Prod.mk.inj h
      obtain rfl : failure' = failure := Except.error.inj he
      exact ⟨[], first, shards, rfl, rfl, hput⟩

theorem writeShards_append_error {shard : Shard} (rest : List Shard)
    (before : s.writeShards written = (.ok (), s'))
    (broken : (shard.encode >>= s'.put shard.id) = .error failure) :
    s.writeShards (written ++ shard :: rest) = (.error failure, s') := by
  induction written generalizing s with
  | nil =>
    obtain ⟨-, rfl⟩ := Prod.mk.inj before
    rw [List.nil_append, writeShards, broken]
  | cons first written ih =>
    rw [writeShards] at before
    rw [List.cons_append, writeShards]
    split at before
    · exact ih before
    · cases before

/-- What is under the ids of shards that were written are their records, and all other keys are as
they were. -/
theorem overlay_writeShards (hd : (written.map (·.id)).Nodup)
    (h : s.writeShards written = (.ok (), s')) :
    ∃ records, written.mapM Shard.encode = .ok records ∧ ∀ key,
      s'.peek key = (((written.map (·.id)).zip records).lookup key).or (s.peek key) := by
  induction written generalizing s with
  | nil =>
    obtain ⟨-, rfl⟩ := Prod.mk.inj h
    exact ⟨[], rfl, fun key ↦ rfl⟩
  | cons shard written ih =>
    rw [List.map_cons, List.nodup_cons] at hd
    rw [writeShards] at h
    split at h
    · next s₁ hput =>
      obtain ⟨bs, hbs, hput⟩ := bind_eq_ok.1 hput
      obtain ⟨records, hrecords, overlay⟩ := ih hd.2 h
      refine ⟨bs :: records, ?_, ?_⟩
      · rw [List.mapM_cons, hbs, ok_bind, hrecords]
        rfl
      · intro key
        rw [overlay key, peek_put hput, List.map_cons, List.zip_cons_cons, List.lookup_cons]
        by_cases hk : key = shard.id
        · have later : ((written.map (·.id)).zip records).lookup key = none := by
            rw [List.lookup_eq_none_iff]
            intro p hp
            have hid : p.1 ∈ written.map (·.id) := (List.of_mem_zip hp).1
            rw [bne_iff_ne]
            rintro rfl
            exact hd.1 (hk ▸ hid)
          rw [later, if_pos hk, beq_iff_eq.2 hk]
          rfl
        · rw [if_neg hk, beq_eq_false_iff_ne.2 hk]
    · cases h

end Store

namespace Settings

def withSource (s : Settings) (source : KeySource) : Settings where
  encryptor := ⟨⟨source, s.encryptor.deriver.info⟩, s.encryptor.chunkSize, s.encryptor.positive⟩
  layout := s.layout

/-- The vaults that come of empty ones while the source of the master key may change at every step,
and all ids that were made for files on the way. -/
inductive Reachable (s : Settings) : List Text → Vault → Prop
  | empty (v : Vault) (shards : v.shards.entries = []) (metadata : v.metadata.entries = []) :
      Reachable s [] v
  | step {ids newIds : List Text} {v w : Vault} (source : KeySource) (before : Reachable s ids v)
      (next : (s.withSource source).Step v newIds w) : Reachable s (newIds ++ ids) w

variable {s : Settings} {ids newIds : List Text} {v w : Vault}

theorem Reachable.exists_hex (h : s.Reachable ids v) :
    ∀ id ∈ ids, ∃ message, id = Sha256.hex message := by
  induction h with
  | empty => exact fun _ hid ↦ nomatch hid
  | step source before next ih =>
    intro id hid
    rcases List.mem_append.1 hid with hid | hid
    · exact next.exists_hex id hid
    · exact ih id hid

theorem Reachable.intact (h : s.Reachable ids v) : v.Intact s ids := by
  induction h with
  | empty v shards metadata => exact (Reached.empty v shards metadata).intact
  | step source before next ih =>
    have other : Vault.Intact _ (s.withSource source) _ := ⟨ih.record, ih.shard, ih.key⟩
    obtain ⟨record, shard, key⟩ := next.intact other before.exists_hex
    exact ⟨record, shard, key⟩

end Settings

def Vault.limited (v : Vault) (shards metadata : Option Nat) : Vault :=
  { v with
    shards := { v.shards with room := shards }
    metadata := { v.metadata with room := metadata } }

theorem Settings.Reachable.limited {s : Settings} {ids : List Text} {v : Vault}
    (h : s.Reachable ids v) (shards metadata : Option Nat) :
    s.Reachable ids (v.limited shards metadata) :=
  h.step s.encryptor.deriver.source (.aside (v.limited shards metadata) rfl rfl)

theorem Settings.download_limited (s : Settings) (fileId : Text) (v : Vault)
    (shards metadata : Option Nat) :
    (s.download fileId (v.limited shards metadata)).answer = (s.download fileId v).answer := by
  rw [answer_download, answer_download]
  rfl

/-- A file that is accepted is stored in an empty vault without limits, and can be downloaded. -/
theorem Settings.Accepts.reachable {s : Settings} {v : Vault} {f : StoredFile} {id : Text}
    {master : CipherKey} (h : s.Accepts f.data f.name f.folder id f.sealedAt)
    (shards : v.shards.entries = []) (metadata : v.metadata.entries = []) (hroom : v.Roomy)
    (hkey : s.encryptor.deriver.source = .fixed master) (htotal : s.layout.total < 0x100000000)
    (whole : f.createdAt.IsWhole) (hid : fileId f.data f.name f.createdAt = .ok id)
    (htime : v.clock.reading v.clock.reads = .ok f.createdAt)
    (hsealed : v.clock.reading (v.clock.reads + 1) = .ok f.sealedAt) :
    ∃ p w, p.id = id ∧ s.Reachable [id] w ∧ s.Prepares v f.data f.name p ∧
      v.shards.writeShards p.shards = (.ok (), w.shards) ∧
      w.metadataOf id = .ok (f.metadata s id) ∧ (s.download id w).answer = .ok f.data ∧
      w.clock = { v.clock with reads := v.clock.reads + 2 } := by
  have scalar := isScalar_of_fileId hid
  obtain ⟨w, hrun, uploaded⟩ := h.run_upload hroom hkey htotal hid htime hsealed
  have outcome := s.upload_outcome v f.data f.name f.folder
  have reachable := (Reachable.empty (s := s) v shards metadata).step s.encryptor.deriver.source
    (.upload f.data f.name f.folder)
  obtain rfl : (s.upload f.data f.name f.folder v).vault = w := congrArg Prod.snd hrun
  rw [hrun] at outcome
  cases outcome with
  | @stored p bs answer w prepared writes record metadata answered =>
    obtain rfl : p.id = id := Except.ok.inj (by
      rw [← prepared.id, ← hid, Except.ok.inj (prepared.createdAt.symm.trans htime)])
    rw [Vault.newIds_of_prepares prepared] at reachable
    obtain ⟨form, held⟩ := uploaded.held
    have found := metadataOf_of_record scalar whole uploaded.peek_metadata uploaded.writable
    exact ⟨p, _, rfl, reachable, prepared, writes, found,
      congrArg Prod.fst (run_download scalar found held), uploaded.clock⟩

/-- An upload fails at a step before its record is written, after it has written some shards. -/
inductive Settings.Stops (s : Settings) (v : Vault) (data : Bytes) (name : Text)
    (folder : Option Text) : List Shard → Failure → Prop
  | unprepared {failure : Failure} (broken : s.prepare v data name = .error failure) :
      Stops s v data name folder [] failure
  /-- A shard cannot be written after those before it. -/
  | shard {p : Prepared} {written : List Shard} {shard : Shard} {rest : List Shard} {store : Store}
      {failure : Failure} (prepared : s.Prepares v data name p)
      (shards : p.shards = written ++ shard :: rest)
      (before : v.shards.writeShards written = (.ok (), store))
      (broken : (shard.encode >>= store.put shard.id) = .error failure) :
      Stops s v data name folder written failure
  /-- All shards are written, and the record cannot be. -/
  | record {p : Prepared} {store : Store} {failure : Failure} (prepared : s.Prepares v data name p)
      (before : v.shards.writeShards p.shards = (.ok (), store))
      (broken : (((p.metadata s data name folder).encode >>= Text.encode) >>=
        v.metadata.put p.id) = .error failure) :
      Stops s v data name folder p.shards failure

/-- An upload writes its shards and its record, and then cannot list the file. -/
structure Settings.Unlisted (s : Settings) (v : Vault) (data : Bytes) (name : Text)
    (folder : Option Text) (failure : Failure) (p : Prepared) (shards metadata : Store) : Prop where
  prepared : s.Prepares v data name p
  shards : v.shards.writeShards p.shards = (.ok (), shards)
  writable : (p.metadata s data name folder).toJson.isWritable = true
  record : ((p.metadata s data name folder).encode >>= Text.encode) =
    .ok (p.metadata s data name folder).record
  metadata : v.metadata.put p.id (p.metadata s data name folder).record = .ok metadata
  listing : ∃ index, v.index = some index ∧
    Index.save index (p.metadata s data name folder).listing = .error failure

namespace Settings

variable {s : Settings} {v : Vault} {data : Bytes} {name : Text} {folder : Option Text}
  {written : List Shard} {failure : Failure}

/-- An upload fails when the store of shards has no room for all of its shards, and leaves those
that there was room for. -/
theorem Prepares.run_upload_of_full {p : Prepared} (h : s.Prepares v data name p)
    (htotal : s.layout.total < 0x100000000) {room : Nat} (hr : v.shards.room = some room)
    (hl : room < s.layout.total) (folder : Option Text) :
    ∃ w, (s.upload data name folder).run v = (.error .storeFull, w) ∧
      v.shards.writeShards (p.shards.take room) = (.ok (), w.shards) ∧ w.metadata = v.metadata := by
  obtain ⟨store, before, full⟩ :=
    Store.writeShards_of_full (h.exists_encode htotal) hr (h.isCut.length ▸ hl)
  refine ⟨{ v.prepared s data p with shards := store }, ?_, before, rfl⟩
  rw [h.run_upload, Settings.write]
  simp only [Vault.prepared, full]

namespace Stops

theorem run_upload (h : s.Stops v data name folder written failure) :
    ∃ w, (s.upload data name folder).run v = (.error failure, w) ∧
      v.shards.writeShards written = (.ok (), w.shards) ∧ w.metadata = v.metadata ∧
      w.index = v.index := by
  cases h with
  | unprepared broken =>
    obtain ⟨w, hw, shards, metadata, index⟩ := run_upload_of_prepare_error broken folder
    exact ⟨w, hw, shards ▸ rfl, metadata, index⟩
  | @shard p written shard rest store failure prepared shards before broken =>
    have writes := Store.writeShards_append_error rest before broken
    rw [← shards] at writes
    refine ⟨{ v.prepared s data p with shards := store }, ?_, before, rfl, rfl⟩
    rw [prepared.run_upload, Settings.write]
    simp only [Vault.prepared, writes]
  | @record p store failure prepared before broken =>
    refine ⟨{ v.prepared s data p with shards := store }, ?_, before, rfl, rfl⟩
    rw [prepared.run_upload, Settings.write]
    simp only [Vault.prepared, before, broken]

/-- The shards that were written are the first ones of those that the file was cut into. -/
theorem exists_prefix (h : s.Stops v data name folder written failure) :
    written = [] ∨ ∃ p, s.Prepares v data name p ∧ written <+: p.shards := by
  cases h with
  | unprepared broken => exact .inl rfl
  | shard prepared shards before broken => exact .inr ⟨_, prepared, _, shards.symm⟩
  | record prepared before broken => exact .inr ⟨_, prepared, List.prefix_rfl⟩

theorem ids (h : s.Stops v data name folder written failure) {id : Text}
    (hid : id ∈ v.newIds data name) :
    written.map (·.id) = (List.range written.length).map fun i : Nat ↦ shardId id i := by
  rcases h.exists_prefix with rfl | ⟨p, prepared, first⟩
  · rfl
  rw [Vault.newIds_of_prepares prepared] at hid
  obtain rfl := List.mem_singleton.1 hid
  have count : written.length ≤ s.layout.total := prepared.isCut.length ▸ first.length_le
  conv => lhs; rw [List.prefix_iff_eq_take.1 first]
  rw [List.map_take, prepared.isCut.ids, ← List.map_take, List.take_range, Nat.min_eq_left count]

theorem nodup_ids (h : s.Stops v data name folder written failure) :
    (written.map (·.id)).Nodup := by
  rcases h.exists_prefix with rfl | ⟨p, prepared, first⟩
  · exact List.nodup_nil
  · exact (first.sublist.map _).nodup (prepared.isCut.ids ▸ nodup_shardIds p.id _)

theorem ne_illegalMove (h : s.Stops v data name folder written failure)
    (clock : ∀ n, Lawful (v.clock.reading n)) (source target : FileStatus) :
    failure ≠ .illegalMove source target := by
  cases h with
  | unprepared broken => exact (broken ▸ Lawful.prepare clock data name).ne source target
  | @shard p written shard rest store failure prepared shards before broken =>
    have lawful : Lawful (shard.encode >>= store.put shard.id) :=
      (Lawful.encodeShard shard).bind fun bs ↦ Lawful.put store shard.id bs
    exact (broken ▸ lawful).ne source target
  | @record p store failure prepared before broken =>
    have lawful : Lawful (((p.metadata s data name folder).encode >>= Text.encode) >>=
        v.metadata.put p.id) :=
      ((Lawful.encodeJson _ _).bind Lawful.encode).bind fun bs ↦ Lawful.put v.metadata p.id bs
    exact (broken ▸ lawful).ne source target

end Stops

theorem Unlisted.run_upload {p : Prepared} {shards metadata : Store}
    (h : s.Unlisted v data name folder failure p shards metadata) :
    (s.upload data name folder).run v =
      (.error failure, { v.prepared s data p with shards, metadata }) := by
  obtain ⟨index, hindex, hsave⟩ := h.listing
  rw [h.prepared.run_upload, Settings.write]
  simp only [Vault.prepared, h.shards, h.record, ok_bind, h.metadata]
  rw [run_listing_eq]
  simp only [hindex, hsave]

/-- An upload that fails has failed at a step before its record was written, or it could not list
its file. -/
theorem stops_or_unlisted {w : Vault}
    (h : (s.upload data name folder).run v = (.error failure, w)) :
    (∃ written, s.Stops v data name folder written failure) ∨
      ∃ p, s.Unlisted v data name folder failure p w.shards w.metadata ∧ w.index = v.index := by
  rcases hp : s.prepare v data name with failure' | p
  · obtain ⟨w', hw, -⟩ := run_upload_of_prepare_error hp folder
    obtain ⟨he, -⟩ := Prod.mk.inj (h.symm.trans hw)
    obtain rfl := Except.error.inj he
    exact .inl ⟨[], .unprepared hp⟩
  have prepared := prepares_of_prepare hp
  have run := h
  rw [prepared.run_upload, Settings.write] at run
  simp only [Vault.prepared] at run
  rcases hs : v.shards.writeShards p.shards with ⟨failure' | _, store⟩
  · rw [hs] at run
    obtain ⟨he, -⟩ := Prod.mk.inj run
    obtain rfl := Except.error.inj he
    obtain ⟨written, shard, rest, shards, before, broken⟩ := Store.writeShards_eq_error hs
    exact .inl ⟨written, .shard prepared shards before broken⟩
  rw [hs] at run
  simp only [] at run
  rcases hm : ((p.metadata s data name folder).encode >>= Text.encode) >>= v.metadata.put p.id
    with failure' | metadata
  · rw [hm] at run
    obtain ⟨he, -⟩ := Prod.mk.inj run
    obtain rfl := Except.error.inj he
    exact .inl ⟨p.shards, .record prepared hs hm⟩
  obtain ⟨bs, hbs, hput⟩ := bind_eq_ok.1 hm
  rw [hm] at run
  simp only [] at run
  rw [run_listing_eq] at run
  obtain ⟨writable, -, rfl⟩ := Metadata.encode_eq_record.1 hbs
  rcases hindex : v.index with _ | index
  · simp only [hindex] at run
    cases run
  rcases hsave : Index.save index (p.metadata s data name folder).listing with failure' | index'
  · simp only [hindex, hsave] at run
    obtain ⟨he, rfl⟩ := Prod.mk.inj run
    obtain rfl := Except.error.inj he
    exact .inr ⟨p, ⟨prepared, hs, writable, hbs, hput, index, hindex, hsave⟩, rfl⟩
  · simp only [hindex, hsave] at run
    cases run

end Settings

theorem Vault.Intact.delete_clears {v : Vault} {s : Settings} {ids : List Text}
    (h : v.Intact s ids) (hex : ∀ id ∈ ids, ∃ message, id = Sha256.hex message) {fileId : Text}
    (scalar : fileId.isScalar = true) :
    (deleteFile fileId v).answer = .ok (v.metadata.peek fileId).isSome ∧
      ∀ key ∈ (deleteFile fileId v).vault.shards.keys,
        (shardPrefix fileId).isPrefixOf key = false := by
  have keys : ∀ key ∈ v.shards.keys, key.isScalar = true := by
    intro key hk
    obtain ⟨id, hid, i, -, rfl⟩ := h.key key hk
    obtain ⟨message, rfl⟩ := hex id hid
    exact isScalar_shardId (Sha256.isScalar_hex message) i
  obtain ⟨removed, answer, w, hrun, deleted, hanswer, all⟩ :=
    run_deleteFile (Store.get_of_isScalar scalar) (fun key hk _ ↦ keys key hk) fun bs hbs ↦ by
      obtain ⟨-, data, name, folder, createdAt, size, hd⟩ := h.record fileId bs hbs
      exact ⟨scalar, _, _, hd, rfl⟩
  obtain ⟨ha, hw⟩ := Prod.mk.inj hrun
  refine ⟨ha.trans (hanswer scalar), ?_⟩
  rw [hw]
  intro key hk
  obtain ⟨bs, hp⟩ := Store.mem_keys_iff.1 hk
  obtain ⟨kept, hp⟩ := deleted.shards.of_peek hp
  have before := Store.mem_keys_iff.2 ⟨bs, hp⟩
  by_contra begins
  rw [Bool.not_eq_false] at begins
  refine kept (all key before begins ?_)
  -- A key that begins so is the id of a shard of this file, and a record lists them all.
  intro record m hrecord hm
  obtain ⟨-, data, name, folder, createdAt, size, hd⟩ := h.record fileId record hrecord
  obtain rfl := Except.ok.inj (hm.symm.trans hd)
  obtain ⟨id, hid, i, hi, rfl⟩ := h.key key before
  obtain ⟨message, hmessage⟩ := hex id hid
  obtain rfl := eq_of_shardPrefix (hmessage ▸ Sha256.lowLine_notMem_hex message) begins
  exact List.mem_map.2 ⟨i, List.mem_range.2 hi, rfl⟩

namespace Settings

variable {s : Settings} {ids : List Text} {v : Vault} {data : Bytes} {name fileId : Text}
  {folder : Option Text} {failure : Failure}

theorem peek_upload_of_notMem (s : Settings) (folder : Option Text)
    (h : fileId ∉ v.newIds data name) :
    (s.upload data name folder v).vault.metadata.peek fileId = v.metadata.peek fileId ∧
      ∀ i : Int, (s.upload data name folder v).vault.shards.peek (shardId fileId i) =
        v.shards.peek (shardId fileId i) := by
  have outcome := s.upload_outcome v data name folder
  change ((s.upload data name folder).run v).2.metadata.peek fileId = _ ∧
    ∀ i : Int, ((s.upload data name folder).run v).2.shards.peek (shardId fileId i) = _
  generalize (s.upload data name folder).run v = result at outcome ⊢
  have other {p : Prepared} (prepared : s.Prepares v data name p) : fileId ≠ p.id := by
    rintro rfl
    exact h (Vault.newIds_of_prepares prepared ▸ List.mem_singleton_self p.id)
  cases outcome with
  | refused same =>
    obtain ⟨shards, metadata, -⟩ := same
    exact ⟨by rw [metadata], fun i ↦ by rw [shards]⟩
  | broken prepared shards metadata =>
    refine ⟨by rw [metadata], fun i ↦ ?_⟩
    rw [shards]
    exact v.shards.peek_writeShards_other prepared.isCut (other prepared) i
  | stored prepared shards record metadata answered =>
    refine ⟨(Store.peek_put metadata fileId).trans (if_neg (other prepared)), fun i ↦ ?_⟩
    have same := v.shards.peek_writeShards_other prepared.isCut (other prepared) i
    rwa [shards] at same

/-- A file is stored, and uploaded once more at the same time when there is room for one shard. -/
theorem exists_full_least : ∃ v id, least.Reachable [id] v ∧ v.newIds [7] "a" = [id] ∧
    (least.download id v).answer = .ok [7] ∧
    (least.upload [7] "a" none v).answer = .error .storeFull ∧
    ∀ p shards metadata, ¬ least.Unlisted v [7] "a" none .storeFull p shards metadata := by
  obtain ⟨id, hid⟩ := exists_fileId [7] (show Text.isScalar "a" = true by decide) .epoch
  have accepts : least.Accepts [7] "a" none id .epoch :=
    accepts_of_least rfl (by decide) (by decide) (by decide) hid (by decide)
  let f : StoredFile := ⟨[7], "a", none, .epoch, .epoch⟩
  obtain ⟨p, w, rfl, reachable, -, -, -, downloaded, clock⟩ :=
    accepts.reachable (f := f) (v := .fresh .epoch) rfl rfl (Vault.roomy_fresh .epoch) rfl (by decide)
      DateTime.isWhole_epoch hid rfl rfl
  have time (n : Nat) : (w.limited (some 1) (some 0)).clock.reading n = .ok .epoch := by
    rw [Vault.limited, clock]
    rfl
  obtain ⟨q, prepared, same, -⟩ := accepts.prepares rfl hid (time _) (time _)
  obtain ⟨_, hrun, -⟩ := prepared.run_upload_of_full (by decide) rfl (by decide) none
  refine ⟨w.limited (some 1) (some 0), p.id, reachable.limited _ _,
    same ▸ Vault.newIds_of_prepares prepared, (download_limited ..).trans downloaded,
    congrArg Prod.fst hrun, fun p shards metadata unlisted ↦ ?_⟩
  have written := unlisted.metadata
  rw [Store.put_of_full rfl] at written
  cases written

/-- An upload fails because it cannot list its file, or at a step before its record is written. In
that case it answers with the failure of the step, leaves the records of the shards before that step
and touches nothing else. A deletion of the file then clears them away, and tells whether an older
record was there. -/
theorem Reachable.leftovers (h : s.Reachable ids v)
    (failed : (s.upload data name folder v).answer = .error failure) :
    (∃ p, s.Unlisted v data name folder failure p (s.upload data name folder v).vault.shards
      (s.upload data name folder v).vault.metadata) ∨
    ∃ written, s.Stops v data name folder written failure ∧
      ((∀ n, Lawful (v.clock.reading n)) →
        ∀ source target, failure ≠ .illegalMove source target) ∧
      (∃ records, written.mapM Shard.encode = .ok records ∧ ∀ key,
        (s.upload data name folder v).vault.shards.peek key =
          (((written.map (·.id)).zip records).lookup key).or (v.shards.peek key)) ∧
      (s.upload data name folder v).vault.metadata = v.metadata ∧
      (s.upload data name folder v).vault.index = v.index ∧
      (∀ other, other ∉ v.newIds data name → ∀ i : Int,
        (s.upload data name folder v).vault.shards.peek (shardId other i) =
          v.shards.peek (shardId other i)) ∧
      ∀ id ∈ v.newIds data name,
        written.map (·.id) = (List.range written.length).map (fun i : Nat ↦ shardId id i) ∧
        (deleteFile id (s.upload data name folder v).vault).answer =
          .ok (v.metadata.peek id).isSome ∧
        ∀ key ∈ (deleteFile id (s.upload data name folder v).vault).vault.shards.keys,
          (shardPrefix id).isPrefixOf key = false := by
  rcases stops_or_unlisted (Prod.ext failed rfl) with ⟨written, stops⟩ | ⟨p, unlisted, -⟩
  swap
  · exact .inl ⟨p, unlisted⟩
  right
  obtain ⟨w, hrun, writes, metadata, index⟩ := stops.run_upload
  have vault : (s.upload data name folder v).vault = w := congrArg Prod.snd hrun
  obtain ⟨records, hrecords, overlay⟩ := Store.overlay_writeShards stops.nodup_ids writes
  have after : w.Intact s (v.newIds data name ++ ids) := vault ▸ h.intact.upload data name folder
  have hex := (h.step s.encryptor.deriver.source (.upload data name folder)).exists_hex
  refine ⟨written, stops, stops.ne_illegalMove, ⟨records, hrecords, vault ▸ overlay⟩,
    vault ▸ metadata, vault ▸ index, fun other hne ↦ (s.peek_upload_of_notMem folder hne).2, ?_⟩
  intro id hid
  obtain ⟨message, rfl⟩ := Vault.exists_hex_of_mem_newIds hid
  obtain ⟨answer, cleared⟩ := after.delete_clears hex (Sha256.isScalar_hex message)
  rw [vault]
  exact ⟨stops.ids hid, metadata ▸ answer, cleared⟩

theorem Reachable.leftovers_least : ∃ v id, least.Reachable [id] v ∧
    (least.upload [7] "a" none v).answer = .error .storeFull ∧
    ∃ written, least.Stops v [7] "a" none written .storeFull ∧
      (deleteFile id (least.upload [7] "a" none v).vault).answer =
        .ok (v.metadata.peek id).isSome ∧
      ∀ key ∈ (deleteFile id (least.upload [7] "a" none v).vault).vault.shards.keys,
        (shardPrefix id).isPrefixOf key = false := by
  obtain ⟨v, id, reachable, newIds, -, failed, listed⟩ := exists_full_least
  obtain ⟨written, stops, -, -, -, -, -, cleared⟩ :=
    (Reachable.leftovers reachable failed).resolve_left fun ⟨p, unlisted⟩ ↦ listed p _ _ unlisted
  obtain ⟨-, answer, keys⟩ := cleared id (newIds ▸ List.mem_singleton_self id)
  exact ⟨v, id, reachable, failed, written, stops, answer, keys⟩

end Settings

end ShardVault
