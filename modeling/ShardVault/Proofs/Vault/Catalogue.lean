import ShardVault.Proofs.Vault.Interruption
import ShardVault.Vault.Listing

namespace ShardVault

namespace Vault

variable {v w : Vault}

/-- The two vaults answer the same about all files and about their listing. -/
structure SameAnswers (v w : Vault) : Prop where
  file : ∀ fileId, w.metadataOf fileId = v.metadataOf fileId
  list : ∀ folder, w.list folder = v.list folder
  totals : w.totals = v.totals
  listed : ∀ folder, w.index.map (Index.list · folder) = v.index.map (Index.list · folder)

theorem sameAnswers_of_eq (metadata : w.metadata = v.metadata) (index : w.index = v.index) :
    v.SameAnswers w := by
  obtain ⟨shards, metadata', index', clock, nonces⟩ := w
  obtain rfl : metadata' = v.metadata := metadata
  obtain rfl : index' = v.index := index
  exact ⟨fun _ ↦ rfl, fun _ ↦ rfl, rfl, fun _ ↦ rfl⟩

end Vault

namespace Settings

variable {s : Settings} {v w : Vault} {data : Bytes} {name id : Text} {folder : Option Text}
  {failure : Failure} {p : Prepared}

theorem Unlisted.found (h : s.Unlisted v data name folder failure p w.shards w.metadata) :
    w.metadataOf p.id = .ok (p.metadata s data name folder).readBack ∧
      (s.download p.id w).answer = .ok data ∧
      ∀ other, other ≠ p.id → w.metadata.peek other = v.metadata.peek other := by
  have scalar := h.prepared.isScalar_id
  have found : w.metadataOf p.id = .ok (p.metadata s data name folder).readBack := by
    rw [Vault.metadataOf, Store.get_of_isScalar scalar, Store.peek_put h.metadata, if_pos rfl,
      ok_bind]
    exact decode_record h.writable
  have held := h.prepared.holdsFile (Store.stored_writeShards h.prepared.isCut h.shards)
  refine ⟨found, congrArg Prod.fst (run_download scalar found held), ?_⟩
  intro other hne
  rw [Store.peek_put h.metadata, if_neg hne]

/-- A failed upload leaves the catalogue as it is, unless all that has failed is to list the file,
whose record is then in the store of metadata and which can be downloaded. The file index is as it
was in either case. -/
theorem catalogue_of_failed (failed : (s.upload data name folder).run v = (.error failure, w)) :
    w.index = v.index ∧
    ((∃ written, s.Stops v data name folder written failure) ∧ w.metadata = v.metadata ∧
        v.SameAnswers w ∨
      ∃ p, s.Unlisted v data name folder failure p w.shards w.metadata ∧
        w.metadataOf p.id = .ok (p.metadata s data name folder).readBack ∧
        (s.download p.id w).answer = .ok data ∧
        ∀ other, other ≠ p.id → w.metadata.peek other = v.metadata.peek other) := by
  rcases stops_or_unlisted failed with ⟨written, stops⟩ | ⟨p, unlisted, index⟩
  · obtain ⟨w', hrun, -, metadata, index⟩ := stops.run_upload
    obtain rfl : w' = w := congrArg Prod.snd (hrun.symm.trans failed)
    exact ⟨index, .inl ⟨⟨written, stops⟩, metadata, Vault.sameAnswers_of_eq metadata index⟩⟩
  · exact ⟨index, .inr ⟨p, unlisted, unlisted.found⟩⟩

theorem exists_unlisted_least : ∃ (v w : Vault) (p : Prepared), least.Reachable [] v ∧
    least.Unlisted v [7] "a" none .storeFull p w.shards w.metadata ∧
    (least.upload [7] "a" none).run v = (.error .storeFull, w) ∧
    w.metadataOf p.id ≠ v.metadataOf p.id := by
  obtain ⟨id, hid⟩ := exists_fileId [7] (show Text.isScalar "a" = true by decide) .epoch
  have accepts : least.Accepts [7] "a" none id .epoch :=
    accepts_of_least rfl (by decide) (by decide) (by decide) hid (by decide)
  let f : StoredFile := ⟨[7], "a", none, .epoch, .epoch⟩
  let v : Vault := { Vault.fresh .epoch with index := some (.memory [] (some 0)) }
  obtain ⟨p, prepared, rfl, created, size, -⟩ := accepts.prepares (v := v) rfl hid rfl rfl
  have scalar := prepared.isScalar_id
  have same : p.metadata least [7] "a" none = f.metadata least p.id := by
    rw [Prepared.metadata, size, created]
    rfl
  obtain ⟨shards, hshards, -⟩ :=
    Store.writeShards_of_room (prepared.exists_encode (by decide)) (show v.shards.room = none from rfl)
  obtain ⟨metadata, hput, -⟩ := Store.put_of_room (show v.metadata.room = none from rfl) scalar
    (f.metadata least p.id).record
  have record := accepts.encode_metadata (f := f) scalar (by decide)
  have writable := (Metadata.encode_eq_record.1 record).1
  rw [← same] at hput record writable
  obtain ⟨bs, -, save⟩ := Metadata.save_listing_of_encode record
  have full : Index.save (.memory [] (some 0)) (p.metadata least [7] "a" none).listing =
      .error .storeFull := (save _).trans (Store.put_of_full rfl _ bs)
  have unlisted : least.Unlisted v [7] "a" none .storeFull p shards metadata :=
    ⟨prepared, hshards, writable, record, hput, _, rfl, full⟩
  have new : v.metadataOf p.id = .error (.metadataNotFound p.id) := rfl
  refine ⟨v, { v.prepared least [7] p with shards, metadata }, p, .empty v rfl rfl, unlisted,
    unlisted.run_upload, ?_⟩
  rw [unlisted.found.1, new]
  intro same
  cases same

theorem catalogue_of_failed_least : ∃ (v w : Vault) (p : Prepared), least.Reachable [] v ∧
    (least.upload [7] "a" none).run v = (.error .storeFull, w) ∧ w.index = v.index ∧
    least.Unlisted v [7] "a" none .storeFull p w.shards w.metadata ∧
    (least.download p.id w).answer = .ok [7] := by
  obtain ⟨v, w, q, reachable, -, failed, changed⟩ := exists_unlisted_least
  obtain ⟨index, ⟨-, -, same⟩ | ⟨p, unlisted, -, downloaded, -⟩⟩ := catalogue_of_failed failed
  · exact absurd (same.file q.id) changed
  · exact ⟨v, w, p, reachable, failed, index, unlisted, downloaded⟩

/-- A failed upload may change the catalogue: a file is found after it that was not found before. -/
theorem not_catalogue_of_failed :
    (¬ ∀ (s : Settings) (ids : List Text) (v w : Vault) (data : Bytes) (name : Text)
      (folder : Option Text), s.Reachable ids v →
      (s.upload data name folder).run v = (.error .storeFull, w) →
      w.metadata = v.metadata ∧ w.index = v.index) ∧
    ¬ ∀ (s : Settings) (ids : List Text) (v w : Vault) (data : Bytes) (name fileId : Text)
      (folder : Option Text), s.Reachable ids v →
      (s.upload data name folder).run v = (.error .storeFull, w) →
      w.metadataOf fileId = v.metadataOf fileId := by
  obtain ⟨v, w, p, reachable, -, failed, changed⟩ := exists_unlisted_least
  constructor
  · intro kept
    obtain ⟨metadata, index⟩ := kept least [] v w [7] "a" none reachable failed
    exact changed ((Vault.sameAnswers_of_eq metadata index).file p.id)
  · intro same
    exact changed (same least [] v w [7] "a" p.id none reachable failed)

end Settings

end ShardVault
