import ShardVault.Proofs.Catalogue.RoundTrip
import ShardVault.Proofs.Json.Plain
import ShardVault.Shard.Layout

namespace ShardVault

theorem FileStatus.isScalar_name (status : FileStatus) : status.name.isScalar = true := by
  cases status <;> decide

namespace Json

theorem isWritable_ofOption (t : Option Text) :
    (Document.ofOption t).isWritable = true := by
  cases t with
  | none => simp [Document.ofOption, Json.isWritable]
  | some t => exact Json.isWritable_text t

theorem areWritable_texts (ts : List Text) : areWritable (ts.map Json.text) = true := by
  rw [areWritable_iff]
  simpa using fun t _ ↦ isWritable_text t

end Json

namespace Document

theorem plain_ofOption_iff {t : Option Text} :
    (ofOption t).Plain ↔ ∀ u ∈ t.toList, u.isScalar = true := by
  cases t with
  | none => exact iff_of_true .null (List.forall_mem_nil _)
  | some t => rw [ofOption, Json.plain_text_iff, Option.toList_some, List.forall_mem_singleton]

theorem plain_texts_iff {ts : List Text} :
    (Json.list (ts.map .text)).Plain ↔ ∀ t ∈ ts, t.isScalar = true := by
  simp only [Json.plain_list_iff, List.forall_mem_map, Json.plain_text_iff]

/-- The fields of a record that was written are read from its text, and from its bytes, which are
there if no text in it has a surrogate. -/
theorem fields_of_encode (fields : List (Text × Json)) {t : Text} (hne : fields ≠ [])
    (hd : (fields.map (·.1)).Nodup) (hf : ∀ p ∈ fields, p.2.IsFlat)
    (h : Json.encode Json.record (.object fields) = .ok t) :
    (Document.text t).fields = .ok (Json.readFieldsOf Json.record fields) ∧
      ((∃ bs, t.encode = .ok bs) ↔ (Json.object fields).Plain) ∧
      ∀ bs, t.encode = .ok bs →
        (Document.bytes bs).fields = .ok (Json.readFieldsOf Json.record fields) := by
  obtain ⟨hw, rfl⟩ := Json.encode_eq_ok_iff.1 h
  have readable : Json.Readable Json.record.asciiOnly Json.nestingLimit (.object fields) :=
    Json.readable_object hd hf hw
  have scalar : (Json.write Json.record (.object fields)).isScalar = true ↔
      (Json.object fields).Plain :=
    (readable.isScalar_write_iff (by decide) (by decide)).trans (or_iff_right Bool.false_ne_true)
  refine ⟨fields_text readable, ?_, fun bs hbs ↦ ?_⟩
  · simp only [Text.encode_eq_ok_iff, exists_and_left, exists_eq', and_true, scalar]
  · obtain ⟨-, rfl⟩ := Text.encode_eq_ok_iff.1 hbs
    exact fields_bytes hne readable

end Document

namespace Metadata

def texts (m : Metadata) : List Text :=
  [m.fileId, m.fileName, m.merkleRoot, m.plainHash] ++ m.shardIds ++ m.folderId.toList

theorem isWritable_toJson {m : Metadata}
    (plainSize : (Json.int m.plainSize).isWritable = true)
    (encryptedSize : (Json.int m.encryptedSize).isWritable = true)
    (total : (Json.int m.totalShards).isWritable = true)
    (data : (Json.int m.dataShards).isWritable = true)
    (parity : (Json.int m.parityShards).isWritable = true) : m.toJson.isWritable = true := by
  have version : (Json.int Metadata.formVersion).isWritable = true := Json.isWritable_int (by decide)
  rw [toJson_eq, Json.isWritable_object]
  simp only [toFields, Json.fieldsWritable, Json.isWritable_text, Json.isWritable_list,
    Json.areWritable_texts, Json.isWritable_ofOption, version, plainSize, encryptedSize, total, data,
    parity, Bool.and_self]

theorem plain_toJson_iff (m : Metadata) :
    m.toJson.Plain ↔ ∀ t ∈ m.texts, t.isScalar = true := by
  have keys : ∀ key ∈ Metadata.keys, key.isScalar = true := by decide
  have time := DateTime.isScalar_shown m.createdAt
  have status := m.status.isScalar_name
  have int (n : Int) : (Json.int n).Plain := .int n
  rw [toJson_eq, Json.plain_object_iff
    fun p hp ↦ keys _ (List.mem_map_of_mem (f := (·.1)) hp)]
  simp only [toFields, texts, List.forall_mem_cons, List.forall_mem_append, int, true_and, and_true,
    Json.plain_text_iff, Document.plain_texts_iff, Document.plain_ofOption_iff, time, status,
    List.not_mem_nil, false_implies, implies_true, and_assoc]

theorem HasLayout.length_dataIds {m : Metadata} (h : m.HasLayout) :
    (m.dataIds.length : Int) = m.dataShards := by
  have total := h.total
  have data := h.data
  have parity := h.parity
  have sum := h.sum
  rw [dataIds, List.length_take_of_le (by omega), Int.toNat_of_nonneg (Int.le_of_lt data)]

theorem HasLayout.layout_of {m : Metadata} (h : m.HasLayout) :
    ∃ l, Layout.of m.dataShards m.parityShards = .ok l ∧ m.dataIds.length = l.data := by
  have length := h.length_dataIds
  rw [Layout.of, dif_pos ⟨h.data, h.parity⟩]
  exact ⟨_, rfl, by simp only []; omega⟩

/-- A record whose counts agree and whose time is known to seconds from universal time, or that was
read. -/
inductive Made : Metadata → Prop
  | new {m : Metadata} (layout : m.HasLayout) (whole : m.createdAt.IsWhole) : Made m
  | read {document : Document} {m : Metadata} (reads : decode document = .ok m) : Made m

theorem Made.layout {m : Metadata} (h : m.Made) : m.HasLayout := by
  cases h with
  | new layout => exact layout
  | read reads => exact hasLayout_of_decode reads

theorem Made.readBack_eq {m : Metadata} (h : m.Made) : m.readBack = m := by
  cases h with
  | new _ whole => exact readBack_of_isWhole whole
  | read reads =>
    obtain ⟨fields, -, hfields⟩ := bind_eq_ok.1 reads
    rw [readBack, (ofFields_eq_ok hfields).2]

theorem Made.decode_of_encode {m : Metadata} (h : m.Made) {t : Text} (ht : m.encode = .ok t) :
    decode (.text t) = .ok m ∧
      ((∃ bs, t.encode = .ok bs) ↔ ∀ own ∈ m.texts, own.isScalar = true) ∧
      ∀ bs, t.encode = .ok bs → decode (.bytes bs) = .ok m := by
  obtain ⟨text, whole, bytes⟩ := Document.fields_of_encode m.toFields (List.cons_ne_nil _ _)
    m.nodup_toFields m.isFlat_of_mem_toFields ht
  have back : ofFields (Json.readFieldsOf Json.record m.toFields) = .ok m := by
    rw [ofFields_readFieldsOf, h.layout.checked_readBack, h.readBack_eq]
  refine ⟨?_, whole.trans m.plain_toJson_iff, fun bs hbs ↦ ?_⟩
  · rw [decode, text, ok_bind, back]
  · rw [decode, bytes bs hbs, ok_bind, back]

end Metadata

namespace IndexRecord

def readBack (r : IndexRecord) : IndexRecord :=
  { r with createdAt := r.createdAt.readBack, modifiedAt := r.modifiedAt.readBack }

def toFields (r : IndexRecord) : List (Text × Json) :=
  [("id", .text r.id), ("name", .text r.name), ("path", .text r.path),
    ("size", .int r.size), ("mimeType", .text r.mimeType), ("createdAt", .text r.createdAt.shown),
    ("modifiedAt", .text r.modifiedAt.shown), ("folderId", Document.ofOption r.folderId),
    ("status", .text r.status.name)]

theorem toJson_eq (r : IndexRecord) : r.toJson = .object r.toFields := rfl

def keys : List Text :=
  ["id", "name", "path", "size", "mimeType", "createdAt", "modifiedAt", "folderId", "status"]

theorem nodup_toFields (r : IndexRecord) : (r.toFields.map (·.1)).Nodup :=
  (by decide : keys.Nodup)

theorem isFlat_of_mem_toFields (r : IndexRecord) : ∀ p ∈ r.toFields, p.2.IsFlat := by
  have folderId := Document.isFlat_ofOption r.folderId
  have text (t : Text) : (Json.text t).IsFlat := trivial
  have int (n : Int) : (Json.int n).IsFlat := trivial
  simp only [toFields, List.forall_mem_cons, text, int, folderId, true_and, List.not_mem_nil,
    false_implies, implies_true]

theorem ofFields_readFieldsOf (r : IndexRecord) :
    ofFields (Json.readFieldsOf Json.record r.toFields) = .ok r.readBack := by
  have hd := r.nodup_toFields
  have textAt (key t : Text) (h : Entries.get? r.toFields key = some (.text t)) :
      Json.requireText (Json.readFieldsOf Json.record r.toFields) key = .ok t :=
    Json.requireText_readFieldsOf hd h
  have id := textAt "id" r.id rfl
  have name := textAt "name" r.name rfl
  have path := textAt "path" r.path rfl
  have mimeType := textAt "mimeType" r.mimeType rfl
  have createdAt := textAt "createdAt" r.createdAt.shown rfl
  have modifiedAt := textAt "modifiedAt" r.modifiedAt.shown rfl
  have status := textAt "status" r.status.name rfl
  have size : Json.requireInt (Json.readFieldsOf Json.record r.toFields) "size" = .ok r.size :=
    Json.requireInt_readFieldsOf hd rfl
  have folderId : Json.requireText? (Json.readFieldsOf Json.record r.toFields) "folderId" = _ :=
    Document.requireText?_ofOption hd (t := r.folderId) rfl
  simp only [ofFields, id, name, path, size, mimeType, createdAt, modifiedAt, folderId, status,
    Document.ofField, mapError_ok, ok_bind, Document.readTime_shown, Document.readStatus_name]
  rfl

theorem isWritable_toJson (r : IndexRecord) :
    r.toJson.isWritable = (Json.int r.size).isWritable := by
  rw [toJson_eq, Json.isWritable_object]
  simp only [toFields, Json.fieldsWritable, Json.isWritable_text, Json.isWritable_ofOption,
    Bool.true_and, Bool.and_true]

def texts (r : IndexRecord) : List Text :=
  [r.id, r.name, r.path, r.mimeType] ++ r.folderId.toList

theorem plain_toJson_iff (r : IndexRecord) :
    r.toJson.Plain ↔ ∀ t ∈ r.texts, t.isScalar = true := by
  have keys : ∀ key ∈ IndexRecord.keys, key.isScalar = true := by decide
  have created := DateTime.isScalar_shown r.createdAt
  have modified := DateTime.isScalar_shown r.modifiedAt
  have status := r.status.isScalar_name
  have size : (Json.int r.size).Plain := .int r.size
  rw [toJson_eq, Json.plain_object_iff
    fun p hp ↦ keys _ (List.mem_map_of_mem (f := (·.1)) hp)]
  simp only [toFields, texts, List.forall_mem_cons, List.forall_mem_append, size, true_and,
    and_true, Json.plain_text_iff, Document.plain_ofOption_iff, created, modified, status,
    List.not_mem_nil, false_implies, implies_true, and_assoc]

theorem ofFields_eq_ok {fields : Entries Json} {r : IndexRecord} (h : ofFields fields = .ok r) :
    r.readBack = r := by
  iterate 6 obtain ⟨_, -, h⟩ := bind_eq_ok.1 h
  obtain ⟨createdAt, hcreated, h⟩ := bind_eq_ok.1 h
  obtain ⟨_, -, h⟩ := bind_eq_ok.1 h
  obtain ⟨modifiedAt, hmodified, h⟩ := bind_eq_ok.1 h
  iterate 3 obtain ⟨_, -, h⟩ := bind_eq_ok.1 h
  obtain rfl := Except.ok.inj h
  rw [readBack, Document.readBack_of_readTime hcreated, Document.readBack_of_readTime hmodified]

/-- A record whose times are known to seconds from universal time, or that was read. -/
inductive Made : IndexRecord → Prop
  | new {r : IndexRecord} (created : r.createdAt.IsWhole) (modified : r.modifiedAt.IsWhole) : Made r
  | read {document : Document} {r : IndexRecord} (reads : decode document = .ok r) : Made r

theorem Made.readBack_eq {r : IndexRecord} (h : r.Made) : r.readBack = r := by
  cases h with
  | new created modified => rw [readBack, created.readBack_eq, modified.readBack_eq]
  | read reads =>
    obtain ⟨fields, -, hfields⟩ := bind_eq_ok.1 reads
    exact ofFields_eq_ok hfields

theorem decode_of_encode {r : IndexRecord} {t : Text} (ht : r.encode = .ok t) :
    decode (.text t) = .ok r.readBack ∧
      ((∃ bs, t.encode = .ok bs) ↔ ∀ own ∈ r.texts, own.isScalar = true) ∧
      ∀ bs, t.encode = .ok bs → decode (.bytes bs) = .ok r.readBack := by
  obtain ⟨text, whole, bytes⟩ := Document.fields_of_encode r.toFields (List.cons_ne_nil _ _)
    r.nodup_toFields r.isFlat_of_mem_toFields ht
  refine ⟨?_, whole.trans r.plain_toJson_iff, fun bs hbs ↦ ?_⟩
  · rw [decode, text, ok_bind, ofFields_readFieldsOf]
  · rw [decode, bytes bs hbs, ok_bind, ofFields_readFieldsOf]

end IndexRecord

/-- Both kinds of records are read back as they were, as text and, if no text in them has a surrogate,
as bytes; and a metadata record that is read has as many data shards as it says, in a layout. -/
theorem records_of_encode :
    (∀ (m : Metadata) (t : Text), m.Made → m.encode = .ok t →
      Metadata.decode (.text t) = .ok m ∧
        ((∃ bs, t.encode = .ok bs) ↔ ∀ own ∈ m.texts, own.isScalar = true) ∧
        ∀ bs, t.encode = .ok bs → Metadata.decode (.bytes bs) = .ok m) ∧
    (∀ (document : Document) (m : Metadata), Metadata.decode document = .ok m → m.HasLayout ∧
      (m.dataIds.length : Int) = m.dataShards ∧
        ∃ layout, Layout.of m.dataShards m.parityShards = .ok layout) ∧
    ∀ (r : IndexRecord) (t : Text), r.encode = .ok t →
      IndexRecord.decode (.text t) = .ok r.readBack ∧
        ((∃ bs, t.encode = .ok bs) ↔ ∀ own ∈ r.texts, own.isScalar = true) ∧
        (∀ bs, t.encode = .ok bs → IndexRecord.decode (.bytes bs) = .ok r.readBack) ∧
        (r.Made → r.readBack = r) := by
  refine ⟨fun m t made ht ↦ made.decode_of_encode ht, fun document m reads ↦ ?_,
    fun r t ht ↦ ?_⟩
  · have layout := Metadata.hasLayout_of_decode reads
    obtain ⟨l, hl, -⟩ := layout.layout_of
    exact ⟨layout, layout.length_dataIds, l, hl⟩
  · obtain ⟨text, whole, bytes⟩ := r.decode_of_encode ht
    exact ⟨text, whole, bytes, fun made ↦ made.readBack_eq⟩

/-- A record of a file in a folder, with letters beyond those of ASCII. -/
def Metadata.small : Metadata :=
  ⟨"f", "né", 1, 2, "", "", ["a", "b"], 2, 1, 1, .epoch, .encrypted, some "é"⟩

def IndexRecord.small : IndexRecord :=
  ⟨"f", "né", 1, "text/plain", .epoch, .epoch, .encrypted, some "é", ""⟩

theorem records_of_encode_small : ∃ t bs u, Metadata.small.encode = .ok t ∧ t.encode = .ok bs ∧
    Metadata.decode (.text t) = .ok .small ∧ Metadata.decode (.bytes bs) = .ok .small ∧
    (Metadata.small.dataIds.length : Int) = Metadata.small.dataShards ∧
    IndexRecord.small.encode = .ok u ∧ IndexRecord.decode (.text u) = .ok .small := by
  obtain ⟨metadata, layout, listed⟩ := records_of_encode
  have epoch := DateTime.isWhole_epoch
  have made : Metadata.small.Made := .new ⟨rfl, by decide, by decide, rfl⟩ epoch
  have written : Metadata.small.encode = .ok (Json.write Json.record Metadata.small.toJson) :=
    Json.encode_eq_ok_iff.2 ⟨by decide +kernel, rfl⟩
  have listing : IndexRecord.small.encode = .ok (Json.write Json.record IndexRecord.small.toJson) :=
    Json.encode_eq_ok_iff.2 ⟨by decide +kernel, rfl⟩
  obtain ⟨text, whole, bytes⟩ := metadata .small _ made written
  obtain ⟨bs, hbs⟩ := whole.2 (by decide)
  obtain ⟨listText, -, -, same⟩ := listed .small _ listing
  obtain ⟨-, count, -⟩ := layout _ _ text
  refine ⟨_, bs, _, written, hbs, text, bytes bs hbs, count, listing, ?_⟩
  rw [listText, same (.new epoch epoch)]

end ShardVault
