import ShardVault.Catalogue.IndexRecord
import ShardVault.Catalogue.Metadata
import ShardVault.Proofs.Json.Fields
import ShardVault.Proofs.Result
import ShardVault.Proofs.Time.RoundTrip

namespace ShardVault

namespace Document

theorem fields_write {style : Json.Style} (hs : style.Sound) {fields : List (Text × Json)}
    (hr : Json.Readable style.asciiOnly Json.nestingLimit (.object fields)) :
    (Document.text (Json.write style (.object fields))).fields =
      .ok (Json.readFieldsOf style fields) := by
  have hread := Json.ofText_write hs hr
  rw [Json.arranged_object] at hread
  simp only [Document.fields, toText?, hread]
  rfl

theorem fields_text {fields : List (Text × Json)}
    (hr : Json.Readable false Json.nestingLimit (.object fields)) :
    (Document.text (Json.write Json.record (.object fields))).fields =
      .ok (Json.readFieldsOf Json.record fields) :=
  fields_write Json.record_sound hr

theorem toText?_bytes {fields : List (Text × Json)} (hne : fields ≠ []) :
    (Document.bytes (Utf8.encodeAll (Json.write Json.record (.object fields)))).toText? =
      some (Json.write Json.record (.object fields)) := by
  have hperm := Json.order_perm Json.record fields
  obtain ⟨p, ps, hps⟩ := List.exists_cons_of_ne_nil (l := Json.record.order fields) fun h ↦ by
    rw [h] at hperm
    exact hne hperm.symm.eq_nil
  obtain ⟨t, ht⟩ : ∃ t, Json.write Json.record (.object fields) =
      CodePoint.ofChar '\x7b' :: CodePoint.ofChar '"' :: t := by
    rw [Json.write_object, hps, List.map_cons]
    have hjoin : ∃ u, Text.join Json.record.betweenItems
        (Json.fieldText Json.record p :: ps.map (Json.fieldText Json.record)) =
        CodePoint.ofChar '"' :: u := by
      cases ps with
      | nil =>
        rw [List.map_nil, Text.join_singleton, Json.fieldText, List.append_assoc,
          Json.writeText_append]
        exact ⟨_, rfl⟩
      | cons q qs =>
        rw [List.map_cons, Text.join_cons_cons, Json.fieldText, List.append_assoc,
          List.append_assoc, Json.writeText_append]
        exact ⟨_, rfl⟩
    obtain ⟨u, hu⟩ := hjoin
    rw [hu]
    exact ⟨_, rfl⟩
  rw [ht]
  exact Encoding.decode_encodeAll (a := CodePoint.ofChar '\x7b') (b := CodePoint.ofChar '"')
    (by decide) (by decide) (by decide) (by decide) t

theorem fields_bytes {fields : List (Text × Json)} (hne : fields ≠ [])
    (hr : Json.Readable false Json.nestingLimit (.object fields)) :
    (Document.bytes (Utf8.encodeAll (Json.write Json.record (.object fields)))).fields =
      .ok (Json.readFieldsOf Json.record fields) := by
  rw [← fields_text hr]
  simp only [Document.fields, toText?_bytes hne]
  rfl

theorem readTime_shown (t : DateTime) : readTime t.shown = .ok t.readBack := by
  simp only [readTime, DateTime.ofText?_shown]

theorem readStatus_name (status : FileStatus) : readStatus status.name = .ok status := by
  simp only [readStatus, FileStatus.ofName?_name]

theorem readBack_of_readTime {t : Text} {time : DateTime} (h : readTime t = .ok time) :
    time.readBack = time := by
  unfold readTime at h
  split at h
  · next found => exact DateTime.readBack_of_ofText? (Except.ok.inj h ▸ found)
  · cases h

theorem requireText?_ofOption {style : Json.Style} {fields : List (Text × Json)} {key : Text}
    (hd : (fields.map (·.1)).Nodup) {t : Option Text}
    (h : Entries.get? fields key = some (ofOption t)) :
    Json.requireText? (Json.readFieldsOf style fields) key = .ok t := by
  cases t with
  | none => exact Json.requireText?_readFieldsOf_null hd h
  | some t => exact Json.requireText?_readFieldsOf hd h

theorem isFlat_ofOption (t : Option Text) : (ofOption t).IsFlat := by
  cases t <;> trivial

end Document

namespace Metadata

def readBack (m : Metadata) : Metadata :=
  { m with createdAt := m.createdAt.readBack }

theorem readBack_of_isWhole {m : Metadata} (whole : m.createdAt.IsWhole) : m.readBack = m := by
  rw [readBack, whole.readBack_eq]

structure HasLayout (m : Metadata) : Prop where
  total : m.totalShards = m.shardIds.length
  data : 0 < m.dataShards
  parity : 0 < m.parityShards
  sum : m.dataShards + m.parityShards = m.totalShards

theorem checked_eq_ok_iff {m m' : Metadata} : m.checked = .ok m' ↔ m = m' ∧ m.HasLayout := by
  unfold checked
  split
  · next h => exact ⟨fun h' ↦ (by cases h'), fun ⟨_, hl⟩ ↦ absurd hl.total h⟩
  split
  · next h =>
    refine ⟨fun h' ↦ (by cases h'), fun ⟨_, hl⟩ ↦ ?_⟩
    have := hl.data
    have := hl.parity
    omega
  split
  · next h => exact ⟨fun h' ↦ (by cases h'), fun ⟨_, hl⟩ ↦ absurd hl.sum h⟩
  · next h1 h2 h3 =>
    rw [Except.ok.injEq]
    exact ⟨fun h ↦ ⟨h, Decidable.not_not.1 h1, by omega, by omega, Decidable.not_not.1 h3⟩, And.left⟩

theorem ofFields_eq_ok {fields : Entries Json} {m : Metadata} (h : ofFields fields = .ok m) :
    m.HasLayout ∧ m.createdAt.readBack = m.createdAt := by
  obtain ⟨version, -, h⟩ := bind_eq_ok.1 h
  split at h
  · cases h
  obtain ⟨items, -, h⟩ := bind_eq_ok.1 h
  split at h
  · cases h
  -- The other fields before the time, none of which is looked at.
  iterate 11 obtain ⟨_, -, h⟩ := bind_eq_ok.1 h
  obtain ⟨createdAt, htime, h⟩ := bind_eq_ok.1 h
  iterate 2 obtain ⟨_, -, h⟩ := bind_eq_ok.1 h
  obtain ⟨rfl, layout⟩ := checked_eq_ok_iff.1 h
  exact ⟨layout, Document.readBack_of_readTime htime⟩

/-- A record that is read has as many shard ids as its counts say, and these are positive. -/
theorem hasLayout_of_decode {document : Document} {m : Metadata} (h : decode document = .ok m) :
    m.HasLayout := by
  obtain ⟨fields, -, hfields⟩ := bind_eq_ok.1 h
  exact (ofFields_eq_ok hfields).1

def toFields (m : Metadata) : List (Text × Json) :=
  [("version", .int formVersion), ("fileId", .text m.fileId),
    ("fileName", .text m.fileName), ("originalSize", .int m.plainSize),
    ("encryptedSize", .int m.encryptedSize), ("merkleRoot", .text m.merkleRoot),
    ("originalHash", .text m.plainHash), ("shardIds", .list (m.shardIds.map .text)),
    ("totalShards", .int m.totalShards), ("dataShards", .int m.dataShards),
    ("parityShards", .int m.parityShards), ("folderId", Document.ofOption m.folderId),
    ("createdAt", .text m.createdAt.shown), ("status", .text m.status.name)]

theorem toJson_eq (m : Metadata) : m.toJson = .object m.toFields := rfl

def keys : List Text :=
  ["version", "fileId", "fileName", "originalSize", "encryptedSize", "merkleRoot", "originalHash",
    "shardIds", "totalShards", "dataShards", "parityShards", "folderId", "createdAt", "status"]

theorem nodup_keys : keys.Nodup := by decide

theorem nodup_toFields (m : Metadata) : (m.toFields.map (·.1)).Nodup := nodup_keys

theorem texts?_arranged (style : Json.Style) (ts : List Text) :
    texts? ((ts.map Json.text).map (Json.arranged style)) = some ts := by
  induction ts with
  | nil => rfl
  | cons t ts ih =>
    simp only [texts?, List.map_cons, Json.arranged, List.mapM_cons] at ih ⊢
    rw [ih]
    rfl

theorem ofFields_readFieldsOf (m : Metadata) :
    ofFields (Json.readFieldsOf Json.record m.toFields) = m.readBack.checked := by
  have hd := m.nodup_toFields
  have textAt (key t : Text) (h : Entries.get? m.toFields key = some (.text t)) :
      Json.requireText (Json.readFieldsOf Json.record m.toFields) key = .ok t :=
    Json.requireText_readFieldsOf hd h
  have intAt (key : Text) (n : Int) (h : Entries.get? m.toFields key = some (.int n)) :
      Json.requireInt (Json.readFieldsOf Json.record m.toFields) key = .ok n :=
    Json.requireInt_readFieldsOf hd h
  have version := intAt "version" formVersion rfl
  have plainSize := intAt "originalSize" m.plainSize rfl
  have encryptedSize := intAt "encryptedSize" m.encryptedSize rfl
  have totalShards := intAt "totalShards" m.totalShards rfl
  have dataShards := intAt "dataShards" m.dataShards rfl
  have parityShards := intAt "parityShards" m.parityShards rfl
  have fileId := textAt "fileId" m.fileId rfl
  have fileName := textAt "fileName" m.fileName rfl
  have merkleRoot := textAt "merkleRoot" m.merkleRoot rfl
  have plainHash := textAt "originalHash" m.plainHash rfl
  have createdAt := textAt "createdAt" m.createdAt.shown rfl
  have status := textAt "status" m.status.name rfl
  have shardIds : Json.requireList (Json.readFieldsOf Json.record m.toFields) "shardIds" = _ :=
    Json.requireList_readFieldsOf hd (show Entries.get? m.toFields "shardIds" =
      some (.list (m.shardIds.map .text)) from rfl)
  have folderId : Json.requireText? (Json.readFieldsOf Json.record m.toFields) "folderId" = _ :=
    Document.requireText?_ofOption hd (t := m.folderId) rfl
  simp only [ofFields, version, plainSize, encryptedSize, totalShards, dataShards, parityShards,
    fileId, fileName, merkleRoot, plainHash, createdAt, status, shardIds, folderId,
    texts?_arranged, Document.ofField, mapError_ok, ok_bind, Document.readTime_shown,
    Document.readStatus_name, ne_eq, not_true_eq_false, if_false]
  rfl

theorem isFlat_of_mem_toFields (m : Metadata) : ∀ p ∈ m.toFields, p.2.IsFlat := by
  have folderId := Document.isFlat_ofOption m.folderId
  have shardIds : (Json.list (m.shardIds.map .text)).IsFlat := ⟨_, rfl⟩
  have text (t : Text) : (Json.text t).IsFlat := trivial
  have int (n : Int) : (Json.int n).IsFlat := trivial
  simp only [toFields, List.forall_mem_cons, text, int, folderId, shardIds, true_and,
    List.not_mem_nil, false_implies, implies_true]

def record (m : Metadata) : Bytes :=
  Utf8.encodeAll (Json.write Json.record m.toJson)

theorem encode_eq_record {m : Metadata} {bs : Bytes} :
    (m.encode >>= Text.encode) = .ok bs ↔ m.toJson.isWritable = true ∧
      (Json.write Json.record m.toJson).isScalar = true ∧ m.record = bs := by
  constructor
  · intro h
    obtain ⟨t, ht, hbs⟩ := bind_eq_ok.1 h
    obtain ⟨hw, rfl⟩ := Json.encode_eq_ok_iff.1 ht
    obtain ⟨hs, rfl⟩ := Text.encode_eq_ok_iff.1 hbs
    exact ⟨hw, hs, rfl⟩
  · rintro ⟨hw, hs, rfl⟩
    exact bind_eq_ok.2 ⟨_, Json.encode_eq_ok_iff.2 ⟨hw, rfl⟩, Text.encode_eq_ok_iff.2 ⟨hs, rfl⟩⟩

theorem decode_record {m : Metadata} (hw : m.toJson.isWritable = true) :
    decode (.bytes m.record) = m.readBack.checked := by
  have hr := Json.readable_object m.nodup_toFields m.isFlat_of_mem_toFields hw
  have hf : (Document.bytes (Utf8.encodeAll (Json.write Json.record
      (.object m.toFields)))).fields = _ := Document.fields_bytes (List.cons_ne_nil _ _) hr
  rw [decode, record, toJson_eq, hf, ok_bind, ofFields_readFieldsOf]

theorem HasLayout.checked_readBack {m : Metadata} (h : m.HasLayout) :
    m.readBack.checked = .ok m.readBack :=
  checked_eq_ok_iff.2 ⟨rfl, ⟨h.total, h.data, h.parity, h.sum⟩⟩

end Metadata

end ShardVault
