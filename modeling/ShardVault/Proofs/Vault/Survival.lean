import ShardVault.Proofs.Vault.Interruption

namespace ShardVault

namespace Vault

variable {v w : Vault} {s : Settings} {ids : List Text} {fileId key : Text} {m : Metadata}
  {found : Bytes}

theorem loadShard_congr (hk : key.isScalar = true)
    (same : w.shards.peek key = v.shards.peek key) : w.loadShard key = v.loadShard key := by
  rw [loadShard, loadShard, Store.get_of_isScalar hk, Store.get_of_isScalar hk, same]

theorem metadataOf_congr (hid : fileId.isScalar = true)
    (same : w.metadata.peek fileId = v.metadata.peek fileId) :
    w.metadataOf fileId = v.metadataOf fileId := by
  rw [Vault.metadataOf, Vault.metadataOf, Store.get_of_isScalar hid, Store.get_of_isScalar hid, same]

theorem metadataOf_of_eq (same : w.metadata = v.metadata) (fileId : Text) :
    w.metadataOf fileId = v.metadataOf fileId := by
  rw [Vault.metadataOf, Vault.metadataOf, same]

theorem Intact.of_metadataOf (h : v.Intact s ids) (hm : v.metadataOf fileId = .ok m) :
    fileId ∈ ids ∧ ∃ data name folder createdAt size,
      m = s.metadataOf data name folder fileId createdAt size := by
  obtain ⟨record, hget, hm⟩ := bind_eq_ok.1 hm
  cases record with
  | none => cases hm
  | some bs =>
    obtain ⟨hid, data, name, folder, createdAt, size, hd⟩ :=
      h.record fileId bs (Store.peek_of_get hget)
    exact ⟨hid, data, name, folder, createdAt, size, Except.ok.inj (hm.symm.trans hd)⟩

theorem Intact.retrieve_eq (h : v.Intact s ids)
    (hex : ∀ id ∈ ids, ∃ message, id = Sha256.hex message)
    (before : s.retrieve fileId v = .ok found)
    (record : w.metadata.peek fileId = v.metadata.peek fileId)
    (shards : ∀ i : Int, w.shards.peek (shardId fileId i) = v.shards.peek (shardId fileId i)) :
    s.retrieve fileId w = .ok found := by
  obtain ⟨m, loaded, hm, ready, hload, rebuilt⟩ := Settings.retrieve_eq_ok before
  obtain ⟨hid, data, name, folder, createdAt, size, rfl⟩ := h.of_metadataOf hm
  obtain ⟨message, hmessage⟩ := hex fileId hid
  have scalar : fileId.isScalar = true := hmessage ▸ Sha256.isScalar_hex message
  have same : w.dataShards (s.metadataOf data name folder fileId createdAt size) = .ok loaded := by
    rw [← hload, dataShards, dataShards]
    refine mapM_congr ?_
    intro key hk
    obtain ⟨i, -, rfl⟩ := List.mem_map.1 (List.mem_of_mem_take hk)
    exact loadShard_congr (isScalar_shardId scalar i) (shards i)
  rw [Settings.retrieve, metadataOf_congr scalar record, hm, ok_bind, ready, if_neg (by decide), same,
    ok_bind, rebuilt]

end Vault

namespace Settings

variable {s : Settings} {v w : Vault} {ids : List Text} {data found : Bytes} {name : Text}
  {folder : Option Text} {fileId : Text} {p : Prepared}

/-- When the data shards of an upload are stored, the file under its id is put together from them,
whatever the record of that file says. -/
theorem Prepares.retrieve_eq (h : s.Prepares v data name p)
    (stored : ∀ shard ∈ p.shards.take s.layout.data,
      ∃ bs, w.shards.peek shard.id = some bs ∧ Shard.decode bs = .ok shard)
    {oldData : Bytes} {oldName : Text} {oldFolder : Option Text} {createdAt : DateTime} {size : Nat}
    (recorded : w.metadataOf p.id =
      .ok (s.metadataOf oldData oldName oldFolder p.id createdAt size)) :
    s.retrieve p.id w = s.rebuild (s.metadataOf oldData oldName oldFolder p.id createdAt size) p.id
      ((p.shards.take s.layout.data).map some) := by
  have ready : (s.metadataOf oldData oldName oldFolder p.id createdAt size).status.isReady = true :=
    rfl
  have shards : w.dataShards (s.metadataOf oldData oldName oldFolder p.id createdAt size) = _ :=
    h.isCut.dataShards h.isScalar_id rfl rfl stored
  rw [retrieve, recorded, ok_bind, ready, if_neg (by decide), shards, ok_bind]

theorem Prepares.eq_of_rebuild (h : s.Prepares v data name p) {m : Metadata}
    (layout : Layout.of m.dataShards m.parityShards = .ok s.layout)
    (rebuilt : s.rebuild m p.id ((p.shards.take s.layout.data).map some) = .ok found) :
    found = data := by
  rw [rebuild, layout, ok_bind, h.isCut.reconstruct.trans h.decodes, ok_bind] at rebuilt
  obtain ⟨c, checked, rebuilt⟩ := bind_eq_ok.1 rebuilt
  obtain rfl := Metadata.eq_of_checkContainer checked
  rw [Container.decrypt_assemble h.fileKey (p.isSealed s data v.nonces), ok_bind] at rebuilt
  exact (Metadata.hash_of_checkData rebuilt).1.symm

/-- A failed upload of a content that has been stored before does no harm once it has written all
data shards. -/
theorem Stops.retrieve_of_data {written : List Shard} {failure : Failure}
    (h : s.Stops v data name folder written failure) (count : s.layout.data ≤ written.length)
    (hid : fileId ∈ v.newIds data name)
    (writes : v.shards.writeShards written = (.ok (), w.shards)) (same : w.metadata = v.metadata)
    {oldName : Text} {oldFolder : Option Text} {createdAt : DateTime} {size : Nat}
    (recorded : v.metadataOf fileId =
      .ok (s.metadataOf data oldName oldFolder fileId createdAt size)) :
    s.retrieve fileId w = .ok data := by
  have positive := s.layout.dataPositive
  rcases h.exists_prefix with rfl | ⟨p, prepared, first⟩
  · rw [List.length_nil] at count
    omega
  rw [Vault.newIds_of_prepares prepared] at hid
  obtain rfl := List.mem_singleton.1 hid
  have stored : ∀ shard ∈ p.shards.take s.layout.data,
      ∃ bs, w.shards.peek shard.id = some bs ∧ Shard.decode bs = .ok shard := by
    intro shard hs
    have hmem : shard ∈ written := by
      rw [List.prefix_iff_eq_take.1 first]
      rw [← Nat.min_eq_left count, ← List.take_take] at hs
      exact List.mem_of_mem_take hs
    obtain ⟨bs, hbs, hp⟩ := Store.peek_writeShards h.nodup_ids writes shard hmem
    exact ⟨bs, hp, prepared.isCut.decode_of_encode (first.subset hmem) hbs⟩
  have record := Vault.metadataOf_of_eq same p.id
  have rebuilt : s.rebuild (s.metadataOf data oldName oldFolder p.id createdAt size) p.id
      (((p.form s data v.nonces).shards.take s.layout.data).map some) = .ok data :=
    rebuild_metadataOf prepared.fileKey (p.isSealed s data v.nonces) prepared.decodes prepared.isCut
  exact (prepared.retrieve_eq stored (record.trans recorded)).trans rebuilt

/-- An upload that fails before its record is written makes no download give out anything else than
before, unless the hash function collides. A file that could be downloaded before the upload can be
downloaded after it, if the upload is of another file, if it has not written any shard, or if it is
of the content of the file and has written all data shards. -/
theorem Reachable.download_of_failed {failure : Failure} (h : s.Reachable ids v)
    (downloaded : (s.download fileId v).answer = .ok found)
    (failed : (s.upload data name folder v).answer = .error failure) :
    (fileId ∉ v.newIds data name →
      (s.download fileId (s.upload data name folder v).vault).answer = .ok found) ∧
    ((∃ p, s.Unlisted v data name folder failure p (s.upload data name folder v).vault.shards
        (s.upload data name folder v).vault.metadata) ∨
      ∃ written, s.Stops v data name folder written failure ∧
        (∀ found', (s.download fileId (s.upload data name folder v).vault).answer = .ok found' →
          found' = found ∨ Sha256.Collision found' found) ∧
        (written = [] →
          (s.download fileId (s.upload data name folder v).vault).answer = .ok found) ∧
        (s.layout.data ≤ written.length → fileId ∈ v.newIds data name →
          ∀ oldName oldFolder createdAt size, v.metadataOf fileId =
            .ok (s.metadataOf data oldName oldFolder fileId createdAt size) →
          (s.download fileId (s.upload data name folder v).vault).answer = .ok data ∧
            (found = data ∨ Sha256.Collision found data))) := by
  obtain ⟨m, hm, hash⟩ := hash_of_download (Prod.ext downloaded rfl)
  rw [answer_download] at downloaded
  refine ⟨?_, ?_⟩
  · intro other
    obtain ⟨record, shards⟩ := s.peek_upload_of_notMem folder other
    rw [answer_download]
    exact h.intact.retrieve_eq h.exists_hex downloaded record shards
  rcases stops_or_unlisted (Prod.ext failed rfl) with ⟨written, stops⟩ | ⟨p, unlisted, -⟩
  swap
  · exact .inl ⟨p, unlisted⟩
  obtain ⟨w, hrun, writes, metadata, -⟩ := stops.run_upload
  have vault : (s.upload data name folder v).vault = w := congrArg Prod.snd hrun
  rw [vault]
  refine .inr ⟨written, stops, ?_, ?_, ?_⟩
  · intro found' downloaded'
    obtain ⟨m', hm', hash'⟩ := hash_of_download (s := s) (v := w) (Prod.ext downloaded' rfl)
    rw [Vault.metadataOf_of_eq metadata] at hm'
    obtain rfl := Except.ok.inj (hm.symm.trans hm')
    exact Sha256.eq_or_collision (hash'.trans hash.symm)
  · rintro rfl
    obtain ⟨-, shards⟩ := Prod.mk.inj writes
    rw [answer_download]
    exact h.intact.retrieve_eq h.exists_hex downloaded (by rw [metadata]) fun i ↦ by rw [shards]
  · intro count hid oldName oldFolder createdAt size recorded
    rw [answer_download]
    refine ⟨stops.retrieve_of_data count hid writes metadata recorded, ?_⟩
    obtain rfl := Except.ok.inj (recorded.symm.trans hm)
    exact Sha256.eq_or_collision hash

theorem Reachable.download_of_failed_least : ∃ v id, least.Reachable [id] v ∧
    (least.download id v).answer = .ok [7] ∧
    (least.upload [7] "a" none v).answer = .error .storeFull ∧
    ∃ written, least.Stops v [7] "a" none written .storeFull ∧
      ∀ found', (least.download id (least.upload [7] "a" none v).vault).answer = .ok found' →
        found' = [7] ∨ Sha256.Collision found' [7] := by
  obtain ⟨v, id, reachable, -, downloaded, failed, listed⟩ := exists_full_least
  obtain ⟨-, outcome⟩ := Reachable.download_of_failed reachable downloaded failed
  obtain ⟨written, stops, safe, -⟩ :=
    outcome.resolve_left fun ⟨p, unlisted⟩ ↦ listed p _ _ unlisted
  exact ⟨v, id, reachable, downloaded, failed, written, stops, safe⟩

/-- An upload of another content makes the id of a stored file, and there is room for its shards but
not for its record. -/
theorem exists_replaced : ∃ v id written, least.Reachable [id] v ∧
    (least.download id v).answer = .ok [0x61] ∧ least.Stops v [] "ab" none written .storeFull ∧
    written.length = least.layout.total ∧
    (least.download id (least.upload [] "ab" none v).vault).answer ≠ .ok [0x61] := by
  obtain ⟨id, hid⟩ := exists_fileId [0x61] (show Text.isScalar "b" = true by decide) .epoch
  have shared : hashedBytes [] "ab" .epoch = hashedBytes [0x61] "b" .epoch := rfl
  have hid' : fileId [] "ab" .epoch = .ok id :=
    fileId_eq_ok_iff.2 ⟨by decide, shared ▸ (fileId_eq_ok_iff.1 hid).2⟩
  let f : StoredFile := ⟨[0x61], "b", none, .epoch, .epoch⟩
  let g : StoredFile := ⟨[], "ab", none, .epoch, .epoch⟩
  have first : least.Accepts [0x61] "b" none id .epoch :=
    accepts_of_least rfl (by decide) (by decide) (by decide) hid (by decide)
  have second : least.Accepts [] "ab" none id .epoch :=
    accepts_of_least rfl (by decide) (by decide) (by decide) hid' (by decide)
  obtain ⟨p, w, -, reachable, -, -, found, downloaded, clock⟩ :=
    first.reachable (f := f) (v := .fresh .epoch) rfl rfl (Vault.roomy_fresh .epoch) rfl (by decide)
      DateTime.isWhole_epoch hid rfl rfl
  have time (n : Nat) : (w.limited none (some 0)).clock.reading n = .ok .epoch := by
    rw [Vault.limited, clock]
    rfl
  obtain ⟨q, prepared, rfl, created, size, -⟩ := second.prepares rfl hid' (time _) (time _)
  have record : q.metadata least [] "ab" none = g.metadata least q.id := by
    rw [Prepared.metadata, size, created]
    rfl
  obtain ⟨store, writes, -⟩ := Store.writeShards_of_room (prepared.exists_encode (by decide))
    (show (w.limited none (some 0)).shards.room = none from rfl)
  have stops : least.Stops (w.limited none (some 0)) [] "ab" none q.shards .storeFull := by
    refine .record prepared writes ?_
    rw [record, second.encode_metadata (f := g) prepared.isScalar_id (by decide), ok_bind,
      Store.put_of_full rfl]
  refine ⟨w.limited none (some 0), q.id, q.shards, reachable.limited _ _,
    (download_limited ..).trans downloaded, stops, prepared.isCut.length, ?_⟩
  intro again
  obtain ⟨w', hrun, writes', metadata, -⟩ := stops.run_upload
  have vault : (least.upload [] "ab" none (w.limited none (some 0))).vault = w' :=
    congrArg Prod.snd hrun
  have recorded : w'.metadataOf q.id = .ok (f.metadata least q.id) :=
    (Vault.metadataOf_of_eq metadata q.id).trans found
  have stored : ∀ shard ∈ q.shards.take least.layout.data,
      ∃ bs, w'.shards.peek shard.id = some bs ∧ Shard.decode bs = .ok shard := fun shard hs ↦
    Store.stored_writeShards prepared.isCut writes' shard (List.mem_of_mem_take hs)
  rw [vault, answer_download, prepared.retrieve_eq stored recorded] at again
  exact absurd (prepared.eq_of_rebuild layout_metadataOf again) (by decide)

theorem Prepares.length_payload (h : s.Prepares v data name p) (hd : data.length < Nat.pow 10 19)
    (hf : s.encryptor.HeaderFits data p.id p.sealedAt) :
    p.payload.length = s.encryptor.containerSize data p.id p.sealedAt := by
  obtain ⟨payload, hp, hl⟩ := Container.encode_assemble p.sealedAt h.isScalar_id
    (p.isSealed s data v.nonces) hd hf
  obtain rfl := Except.ok.inj (h.payload.symm.trans hp)
  exact hl

def halved : Settings where
  encryptor := least.encryptor
  layout := ⟨2, 1, Nat.two_pos, Nat.one_pos⟩

theorem Prepares.take_halved (h : halved.Prepares v data name p) : p.shards.take 2 =
    [Shard.ofData p.id 0 false (p.payload.take ((p.payload.length + 1) / 2)),
      Shard.ofData p.id 1 false
        ((p.payload.drop ((p.payload.length + 1) / 2)).take ((p.payload.length + 1) / 2))] :=
  Layout.take_of_cut h.shards

/-- The first half of the container of an empty file and the second half of a shorter one do not
make a container. -/
theorem Prepares.reconstruct_torn (h : halved.Prepares v [] name p) {other : Bytes}
    (longer : other.length + 1 < p.payload.length) (large : 19 ≤ p.payload.length) :
    halved.layout.reconstruct
      ([Shard.ofData p.id 0 false (p.payload.take ((p.payload.length + 1) / 2)),
        Shard.ofData p.id 1 false ((other.drop ((other.length + 1) / 2)).take
          ((other.length + 1) / 2))].map some) (some p.id) =
      .error (.corruptContainer .truncatedHeader) := by
  have joined : halved.layout.reconstruct _ (some p.id) = _ := Layout.reconstruct_ofData
    (show [p.payload.take ((p.payload.length + 1) / 2),
      (other.drop ((other.length + 1) / 2)).take ((other.length + 1) / 2)].length =
        halved.layout.data from rfl)
  refine joined.trans ?_
  rw [List.flatten_cons, List.flatten_singleton]
  refine Container.decode_of_short rfl h.payload (by omega) ?_
  rw [List.length_append, List.length_take, List.length_take, List.length_drop]
  omega

/-- An upload of an empty file that writes one of its two data shards over those of a shorter
container leaves none that can be read. -/
theorem Prepares.retrieve_torn {u : Vault} {q : Prepared} {oldData : Bytes} {oldName : Text}
    (older : halved.Prepares u oldData oldName q) (newer : halved.Prepares v [] name p)
    (same : q.id = p.id) (longer : q.payload.length + 1 < p.payload.length)
    (large : 19 ≤ p.payload.length)
    (held : ∀ shard ∈ q.shards, ∃ bs, v.shards.peek shard.id = some bs ∧ Shard.decode bs = .ok shard)
    (writes : v.shards.writeShards (p.shards.take 1) = (.ok (), w.shards))
    {oldFolder : Option Text} {createdAt : DateTime} {size : Nat} (recorded : w.metadataOf p.id =
      .ok (halved.metadataOf oldData oldName oldFolder p.id createdAt size)) :
    halved.retrieve p.id w = .error (.corruptContainer .truncatedHeader) := by
  have torn := newer.reconstruct_torn longer large
  have front := newer.take_halved
  have back := older.take_halved
  rw [same] at back
  generalize hfresh : Shard.ofData p.id 0 false (p.payload.take _) = fresh at torn front
  generalize hstale : Shard.ofData p.id 1 false ((q.payload.drop _).take _) = stale at torn back
  have fresh_id : fresh.id = shardId p.id 0 := hfresh ▸ rfl
  have stale_id : stale.id = shardId p.id 1 := hstale ▸ rfl
  have first : p.shards.take 1 = [fresh] := by
    rw [← Nat.min_eq_left (show 1 ≤ 2 by decide), ← List.take_take, front]
    rfl
  rw [first] at writes
  have fresh_stored : ∃ bs, w.shards.peek fresh.id = some bs ∧ Shard.decode bs = .ok fresh := by
    have distinct : ([fresh].map (·.id)).Nodup := List.pairwise_singleton _ _
    obtain ⟨bs, hbs, hp⟩ :=
      Store.peek_writeShards distinct writes fresh (List.mem_singleton_self fresh)
    exact ⟨bs, hp, newer.isCut.decode_of_encode
      (List.mem_of_mem_take (first ▸ List.mem_singleton_self fresh)) hbs⟩
  have stale_stored : ∃ bs, w.shards.peek stale.id = some bs ∧ Shard.decode bs = .ok stale := by
    have kept : (v.shards.writeShards [fresh]).2.peek stale.id = v.shards.peek stale.id := by
      refine Store.peek_writeShards_of_ne (List.forall_mem_singleton.2 fun he ↦ ?_)
      rw [fresh_id, stale_id] at he
      exact absurd (shardId_inj.1 he).2 (by decide)
    rw [writes] at kept
    rw [kept]
    exact held stale (List.mem_of_mem_take (back ▸ List.mem_cons_of_mem _ (List.mem_singleton_self _)))
  have ids : (halved.metadataOf oldData oldName oldFolder p.id createdAt size).dataIds =
      [fresh, stale].map (·.id) := by
    rw [List.map_cons, List.map_singleton, fresh_id, stale_id]
    rfl
  have shards : w.dataShards (halved.metadataOf oldData oldName oldFolder p.id createdAt size) = _ :=
    Vault.dataShards_eq ids
      (List.forall_mem_cons.2 ⟨fresh_id ▸ isScalar_shardId newer.isScalar_id 0,
        List.forall_mem_singleton.2 (stale_id ▸ isScalar_shardId newer.isScalar_id 1)⟩)
      (List.forall_mem_cons.2 ⟨fresh_stored, List.forall_mem_singleton.2 stale_stored⟩)
  have ready :
      (halved.metadataOf oldData oldName oldFolder p.id createdAt size).status.isReady = true := rfl
  rw [retrieve, recorded, ok_bind, ready, if_neg (by decide), shards, ok_bind, rebuild,
    layout_metadataOf, ok_bind, torn]
  rfl

end Settings

def DateTime.afterEpoch : DateTime :=
  { DateTime.epoch with time := TimeOfDay.ofMicros 1 }

namespace Settings

theorem containerSize_afterEpoch (s : Settings) (fileId : Text) :
    s.encryptor.containerSize [] fileId .epoch + 7 =
        s.encryptor.containerSize [] fileId .afterEpoch ∧
      19 ≤ s.encryptor.containerSize [] fileId .afterEpoch := by
  obtain ⟨rest, header⟩ := s.encryptor.exists_length_headerBytes [] fileId
  have short : (Utf8.encodeAll (Json.writeText true DateTime.epoch.shown)).length = 27 := by decide
  have long : (Utf8.encodeAll (Json.writeText true DateTime.afterEpoch.shown)).length = 34 := by
    decide
  rw [Container.Encryptor.containerSize, Container.Encryptor.containerSize, header, header, short,
    long]
  omega

/-- An empty file is uploaded once more at the same time, its container is made later than that of
the first upload, and there is room for one of its two data shards. -/
theorem exists_torn : ∃ v id, halved.Reachable [id] v ∧ (halved.download id v).answer = .ok [] ∧
    (halved.upload [] "a" none v).answer = .error .storeFull ∧
    (halved.download id (halved.upload [] "a" none v).vault).answer ≠ .ok [] := by
  obtain ⟨id, hid⟩ := exists_fileId [] (show Text.isScalar "a" = true by decide) .epoch
  let f : StoredFile := ⟨[], "a", none, .epoch, .epoch⟩
  let clock : Clock := ⟨fun n ↦ .ok (if n = 3 then .afterEpoch else .epoch), 0⟩
  have first : halved.Accepts [] "a" none id .epoch :=
    accepts_of_least rfl (by decide) (by decide) (by decide) hid (by decide)
  have second : halved.Accepts [] "a" none id .afterEpoch :=
    accepts_of_least rfl (by decide) (by decide) (by decide) hid (by decide)
  obtain ⟨p, w, same, reachable, older, written, found, downloaded, time⟩ :=
    first.reachable (f := f) (v := { Vault.fresh .epoch with clock }) rfl rfl
      ⟨rfl, rfl, (Vault.roomy_fresh .epoch).index⟩ rfl (by decide) DateTime.isWhole_epoch hid rfl rfl
  have created : (w.limited (some 1) none).clock.reading (w.limited (some 1) none).clock.reads =
      .ok .epoch := by
    rw [Vault.limited, time]
    rfl
  have sealedAt : (w.limited (some 1) none).clock.reading
      ((w.limited (some 1) none).clock.reads + 1) = .ok .afterEpoch := by
    rw [Vault.limited, time]
    rfl
  obtain ⟨q, newer, rfl, -, size, -⟩ := second.prepares rfl hid created sealedAt
  obtain ⟨w', hrun, writes, metadata⟩ := newer.run_upload_of_full (by decide) rfl (by decide) none
  have sealedFirst : DateTime.epoch = p.sealedAt := Except.ok.inj older.sealedAt
  have oldSize : p.payload.length = halved.encryptor.containerSize [] p.id p.sealedAt :=
    older.length_payload (by decide) (by rw [same, ← sealedFirst]; exact first.header)
  rw [same, ← sealedFirst] at oldSize
  obtain ⟨longer, large⟩ := halved.containerSize_afterEpoch q.id
  have recorded : w'.metadataOf q.id = .ok (f.metadata halved q.id) :=
    (Vault.metadataOf_of_eq metadata q.id).trans found
  have held := Store.stored_writeShards older.isCut written
  have torn := Prepares.retrieve_torn older newer same (by omega) (by omega) held writes recorded
  refine ⟨w.limited (some 1) none, q.id, reachable.limited _ _, (download_limited ..).trans downloaded,
    congrArg Prod.fst hrun, ?_⟩
  have vault : (halved.upload [] "a" none (w.limited (some 1) none)).vault = w' :=
    congrArg Prod.snd hrun
  rw [vault, answer_download, torn]
  intro same
  cases same

/-- A failed upload can make a stored file unreadable: one of the same content that has written some
of its data shards, and one of another content with the same id that has written all its shards. -/
theorem not_download_of_failed :
    (¬ ∀ (s : Settings) (ids : List Text) (v : Vault) (data : Bytes) (name fileId : Text),
      s.Reachable ids v → (s.download fileId v).answer = .ok data →
      (s.upload data name none v).answer = .error .storeFull →
      (s.download fileId (s.upload data name none v).vault).answer = .ok data) ∧
    ¬ ∀ (s : Settings) (ids : List Text) (v : Vault) (data found : Bytes) (name fileId : Text)
        (written : List Shard),
      s.Reachable ids v → (s.download fileId v).answer = .ok found →
      s.Stops v data name none written .storeFull → written.length = s.layout.total →
      (s.download fileId (s.upload data name none v).vault).answer = .ok found := by
  constructor
  · intro survives
    obtain ⟨v, id, reachable, downloaded, failed, lost⟩ := exists_torn
    exact lost (survives halved [id] v [] "a" id reachable downloaded failed)
  · intro survives
    obtain ⟨v, id, written, reachable, downloaded, stops, all, lost⟩ := exists_replaced
    exact lost (survives least [id] v [] [0x61] "ab" id written reachable downloaded stops all)

end Settings

end ShardVault
