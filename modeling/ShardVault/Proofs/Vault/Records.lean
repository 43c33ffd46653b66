import ShardVault.Proofs.Catalogue.Records
import ShardVault.Proofs.Store.Laws
import ShardVault.Proofs.Vault.Download

namespace ShardVault

theorem isScalar_mimeType (name : Text) : (mimeType name).isScalar = true := by
  have kinds : ∀ p ∈ mimeTypes, p.2.isScalar = true := by decide +kernel
  simp only [mimeType]
  cases h : ((name.afterLast? (CodePoint.ofChar '.')).map Text.lower).bind
      fun kind ↦ List.lookup kind mimeTypes with
  | none => exact (by decide : Text.isScalar "application/octet-stream" = true)
  | some kind =>
    obtain ⟨key, -, hk⟩ := Option.bind_eq_some_iff.1 h
    obtain ⟨before, after, he, -⟩ := List.lookup_eq_some_iff.1 hk
    exact kinds (key, kind) (he ▸ by simp)

theorem Index.save_eq_put {r : IndexRecord} (size : (Json.int r.size).isWritable = true)
    (texts : ∀ t ∈ r.texts, t.isScalar = true) : ∃ bs,
      IndexRecord.decode (.bytes bs) = .ok r.readBack ∧
        ∀ index : Store, Index.save index r = index.put r.id bs := by
  have written : r.encode = .ok (Json.write Json.record r.toJson) :=
    Json.encode_eq_ok_iff.2 ⟨r.isWritable_toJson.trans size, rfl⟩
  obtain ⟨-, whole, bytes⟩ := IndexRecord.decode_of_encode written
  obtain ⟨bs, hbs⟩ := whole.2 texts
  refine ⟨bs, bytes bs hbs, fun index ↦ ?_⟩
  rw [Index.save, written, ok_bind, hbs, ok_bind]

namespace Metadata

variable {m : Metadata}

theorem isScalar_of_mem_texts_listing (h : ∀ t ∈ m.texts, t.isScalar = true) :
    ∀ t ∈ m.listing.texts, t.isScalar = true := by
  have path : Text.isScalar [] = true := rfl
  have mime := isScalar_mimeType m.fileName
  simp only [texts, List.forall_mem_append, List.forall_mem_cons, List.not_mem_nil, false_implies,
    implies_true, and_true] at h
  simp only [IndexRecord.texts, listing, List.forall_mem_append, List.forall_mem_cons, path, mime,
    List.not_mem_nil, false_implies, implies_true, and_true]
  obtain ⟨⟨⟨id, name, -⟩, -⟩, folder⟩ := h
  exact ⟨⟨id, name⟩, folder⟩

theorem save_listing_of_encode {bs : Bytes}
    (h : (m.encode >>= Text.encode) = .ok bs) : ∃ bs',
      IndexRecord.decode (.bytes bs') = .ok m.readBack.listing ∧
        ∀ index : Store, Index.save index m.listing = index.put m.fileId bs' := by
  obtain ⟨t, ht, hbs⟩ := bind_eq_ok.1 h
  have writable := (Json.encode_eq_ok_iff.1 ht).1
  rw [toJson_eq, Json.isWritable_object, Json.fieldsWritable_iff] at writable
  have size : (Json.int m.plainSize).isWritable = true :=
    writable ("originalSize", .int m.plainSize) (by simp [toFields])
  obtain ⟨-, whole, -⟩ := Document.fields_of_encode m.toFields (List.cons_ne_nil _ _)
    m.nodup_toFields m.isFlat_of_mem_toFields ht
  have texts := m.plain_toJson_iff.1 (whole.1 ⟨bs, hbs⟩)
  exact Index.save_eq_put (r := m.listing) size (isScalar_of_mem_texts_listing texts)

/-- A record whose counts agree is found as it is, unless its time has parts of seconds in its
distance from universal time. -/
theorem HasLayout.metadataOf (h : m.HasLayout) (whole : m.createdAt.IsWhole)
    (hw : m.toJson.isWritable = true) {v : Vault} {id : Text} (hid : id.isScalar = true)
    (hp : v.metadata.peek id = some m.record) : v.metadataOf id = .ok m := by
  rw [Vault.metadataOf, Store.get_of_isScalar hid, hp, ok_bind]
  simp only []
  rw [decode_record hw, h.checked_readBack, readBack_of_isWhole whole]

end Metadata

namespace Settings

variable {s : Settings} {v : Vault} {data : Bytes} {name id : Text} {folder : Option Text}
  {createdAt : DateTime} {size : Nat}

theorem isScalar_root (s : Settings) (data : Bytes) :
    (Merkle.root ((chunks s.encryptor.chunkSize data).map Sha256.hex)).isScalar = true := by
  apply Merkle.isScalar_root
  intro leaf hl
  obtain ⟨piece, -, rfl⟩ := List.mem_map.1 hl
  exact Sha256.isScalar_hex piece

theorem encode_metadataOf (hid : id.isScalar = true) (hname : name.isScalar = true)
    (hfolder : ∀ f ∈ folder, f.isScalar = true) (hdata : data.length < Nat.pow 10 20)
    (hsize : size < Nat.pow 10 20) (htotal : s.layout.total < Nat.pow 10 20) :
    ((s.metadataOf data name folder id createdAt size).encode >>= Text.encode) =
      .ok (s.metadataOf data name folder id createdAt size).record := by
  have nat {n : Nat} (h : n < Nat.pow 10 20) : (Json.int n).isWritable = true :=
    Json.isWritable_int (by omega)
  have total : s.layout.total = s.layout.data + s.layout.parity := rfl
  refine Metadata.encode_eq_record.2 ⟨Metadata.isWritable_toJson (nat hdata) (nat hsize)
    (nat htotal) (nat (by omega)) (nat (by omega)), ?_, rfl⟩
  refine ((Metadata.plain_toJson_iff _).2 ?_).isScalar_write (by decide) (by decide)
  have shards : ∀ t ∈ (List.range s.layout.total).map fun i : Nat ↦ shardId id i,
      t.isScalar = true := by
    intro t ht
    obtain ⟨i, -, rfl⟩ := List.mem_map.1 ht
    exact isScalar_shardId hid i
  simp only [Metadata.texts, Settings.metadataOf, List.forall_mem_append, List.forall_mem_cons, hid,
    hname, s.isScalar_root data, Sha256.isScalar_hex, List.not_mem_nil, false_implies, implies_true,
    true_and]
  exact ⟨shards, fun f hf ↦ hfolder f (Option.mem_toList.1 hf)⟩

theorem hasLayout_metadataOf (s : Settings) (data : Bytes) (name : Text) (folder : Option Text)
    (id : Text) (createdAt : DateTime) (size : Nat) :
    (s.metadataOf data name folder id createdAt size).HasLayout where
  total := by simp [Settings.metadataOf]
  data := Int.natCast_pos.2 s.layout.dataPositive
  parity := Int.natCast_pos.2 s.layout.parityPositive
  sum := rfl

theorem decode_record
    (hw : (s.metadataOf data name folder id createdAt size).toJson.isWritable = true) :
    Metadata.decode (.bytes (s.metadataOf data name folder id createdAt size).record) =
      .ok (s.metadataOf data name folder id createdAt size).readBack := by
  rw [Metadata.decode_record hw]
  exact (s.hasLayout_metadataOf ..).checked_readBack

theorem metadataOf_of_record (hid : id.isScalar = true) (whole : createdAt.IsWhole)
    (hp : v.metadata.peek id = some (s.metadataOf data name folder id createdAt size).record)
    (hw : (s.metadataOf data name folder id createdAt size).toJson.isWritable = true) :
    v.metadataOf id = .ok (s.metadataOf data name folder id createdAt size) :=
  (s.hasLayout_metadataOf ..).metadataOf whole hw hid hp

end Settings

end ShardVault
