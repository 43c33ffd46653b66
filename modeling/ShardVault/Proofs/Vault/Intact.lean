import ShardVault.Proofs.Vault.Delete
import ShardVault.Proofs.Vault.Storing
import ShardVault.Proofs.Vault.Tampering

namespace ShardVault

namespace Store

def HoldsShard (store : Store) (l : Layout) (key : Text) : Prop :=
  ∃ bs shard, store.peek key = some bs ∧ Shard.decode bs = .ok shard ∧ shard.id = key ∧
    shard.verify = true ∧ (shard.isParity = true ↔ (l.data : Int) ≤ shard.index)

variable {store store' : Store} {l : Layout} {fileId : Text} {payload : Bytes}
  {shards : List Shard}

theorem HoldsShard.of_peek {key : Text} (h : store.HoldsShard l key)
    (he : store'.peek key = store.peek key) : store'.HoldsShard l key := by
  obtain ⟨bs, shard, hp, rest⟩ := h
  exact ⟨bs, shard, he.trans hp, rest⟩

theorem holdsShard_of_isCut (h : l.IsCut fileId payload shards) {shard : Shard} (hs : shard ∈ shards)
    {bs : Bytes} (hbs : shard.encode = .ok bs) (hp : store.peek shard.id = some bs) :
    store.HoldsShard l shard.id :=
  ⟨bs, shard, hp, h.decode_of_encode hs hbs, rfl, h.verify hs, h.isParity_iff hs⟩

/-- Writing the shards of a cut keeps every shard that is held, however far the writes come. -/
theorem HoldsShard.writeShards {key : Text} (hk : store.HoldsShard l key)
    (h : l.IsCut fileId payload shards) : (store.writeShards shards).2.HoldsShard l key := by
  refine writeShards_induct (P := fun x ↦ x.HoldsShard l key) hk
    ?_
  intro shard hs x x' bs hx hbs hput
  by_cases hne : key = shard.id
  · subst hne
    exact holdsShard_of_isCut h hs hbs ((peek_put hput _).trans (if_pos rfl))
  · exact hx.of_peek ((peek_put hput key).trans (if_neg hne))

theorem mem_keys_writeShards (h : l.IsCut fileId payload shards) {key : Text}
    (hk : key ∈ (store.writeShards shards).2.keys) :
    key ∈ store.keys ∨ ∃ i < l.total, key = shardId fileId i := by
  revert hk
  refine writeShards_induct (P := fun x ↦ key ∈ x.keys → _) .inl
    ?_
  intro shard hs x x' bs hx hbs hput hk
  rcases (mem_keys_put hput).1 hk with rfl | hk
  · exact .inr (h.exists_id hs)
  · exact hx hk

theorem holdsShard_writeShards (h : l.IsCut fileId payload shards)
    (hw : store.writeShards shards = (.ok (), store')) {i : Nat} (hi : i < l.total) :
    store'.HoldsShard l (shardId fileId i) := by
  have hmem : shardId fileId i ∈ shards.map (·.id) := by
    rw [h.ids]
    exact List.mem_map.2 ⟨i, List.mem_range.2 hi, rfl⟩
  obtain ⟨shard, hs, he⟩ := List.mem_map.1 hmem
  obtain ⟨bs, hbs, hp⟩ := peek_writeShards (h.ids ▸ nodup_shardIds fileId _) hw shard hs
  exact he ▸ holdsShard_of_isCut h hs hbs hp

end Store

namespace Vault

def newIds (v : Vault) (data : Bytes) (name : Text) : List Text :=
  match TextRule.fileName.checkText name, v.clock.reading v.clock.reads >>= fileId data name with
  | .ok _, .ok id => [id]
  | _, _ => []

theorem newIds_of_prepares {s : Settings} {v : Vault} {data : Bytes} {name : Text} {p : Prepared}
    (h : s.Prepares v data name p) : v.newIds data name = [p.id] := by
  have hid : (v.clock.reading v.clock.reads >>= fileId data name) = .ok p.id :=
    bind_eq_ok.2 ⟨_, h.createdAt, h.id⟩
  simp only [newIds, h.valid, hid]

theorem exists_hex_of_mem_newIds {v : Vault} {data : Bytes} {name id : Text}
    (h : id ∈ v.newIds data name) : ∃ message, id = Sha256.hex message := by
  unfold newIds at h
  split at h
  · next made _ hid =>
    obtain rfl := List.mem_singleton.1 h
    obtain ⟨time, -, hid⟩ := bind_eq_ok.1 hid
    exact exists_hex_of_fileId hid
  · cases h

/-- The records of a vault can be read and their shards are held, and there are no shards but those
of files with the ids given. -/
structure Intact (v : Vault) (s : Settings) (ids : List Text) : Prop where
  record : ∀ key bs, v.metadata.peek key = some bs → key ∈ ids ∧
    ∃ data name folder createdAt size, Metadata.decode (.bytes bs) =
      .ok (s.metadataOf data name folder key createdAt size)
  shard : ∀ key bs, v.metadata.peek key = some bs → ∀ i < s.layout.total,
    v.shards.HoldsShard s.layout (shardId key i)
  key : ∀ key ∈ v.shards.keys, ∃ id ∈ ids, ∃ i < s.layout.total, key = shardId id i

namespace Intact

variable {v w : Vault} {s : Settings} {ids : List Text} {data : Bytes} {name : Text}
  {folder : Option Text} {p : Prepared}

theorem weaken {ids' : List Text} (h : v.Intact s ids) (hi : ∀ id ∈ ids, id ∈ ids') :
    v.Intact s ids' where
  record := fun key bs hp ↦ (h.record key bs hp).imp_left (hi key)
  shard := h.shard
  key := fun key hk ↦ (h.key key hk).imp fun id hid ↦ hid.imp_left (hi id)

theorem of_stores (h : v.Intact s ids) (hs : ∀ key, w.shards.peek key = v.shards.peek key)
    (hm : ∀ key, w.metadata.peek key = v.metadata.peek key) : w.Intact s ids where
  record := fun key bs hp ↦ h.record key bs (hm key ▸ hp)
  shard := fun key bs hp i hi ↦ (h.shard key bs (hm key ▸ hp) i hi).of_peek (hs _)
  key := fun key hk ↦ h.key key (by rw [Store.mem_keys_iff] at hk ⊢; rwa [← hs])

/-- Shards that are written over others or besides them, all or some, leave the records intact. -/
theorem of_writeShards (h : v.Intact s ids) (hp : s.Prepares v data name p)
    (hs : w.shards = (v.shards.writeShards p.shards).2) (hm : w.metadata = v.metadata) :
    w.Intact s (v.newIds data name ++ ids) where
  record := fun key bs hk ↦
    (h.record key bs (hm ▸ hk)).imp_left fun hid ↦ List.mem_append_right _ hid
  shard := fun key bs hk i hi ↦ hs ▸ (h.shard key bs (hm ▸ hk) i hi).writeShards hp.isCut
  key := by
    intro key hk
    rw [hs] at hk
    rcases Store.mem_keys_writeShards hp.isCut hk with hk | ⟨i, hi, rfl⟩
    · obtain ⟨id, hid, rest⟩ := h.key key hk
      exact ⟨id, List.mem_append_right _ hid, rest⟩
    · rw [newIds_of_prepares hp]
      exact ⟨p.id, by simp, i, hi, rfl⟩

theorem upload (h : v.Intact s ids) (data : Bytes) (name : Text) (folder : Option Text) :
    (s.upload data name folder v).vault.Intact s (v.newIds data name ++ ids) := by
  have outcome := s.upload_outcome v data name folder
  change ((s.upload data name folder).run v).2.Intact s _
  generalize (s.upload data name folder).run v = result at outcome ⊢
  cases outcome with
  | refused same =>
    obtain ⟨hs, hm, -⟩ := same
    exact (h.of_stores (fun key ↦ by rw [hs]) fun key ↦ by rw [hm]).weaken fun id hid ↦
      List.mem_append_right _ hid
  | broken prepared shards metadata => exact h.of_writeShards prepared shards metadata
  | @stored p bs answer w prepared shards record metadata answered =>
    have written := h.of_writeShards (w := { w with metadata := v.metadata }) prepared
      (by rw [shards]) rfl
    obtain ⟨writable, -, rfl⟩ := Metadata.encode_eq_record.1 record
    refine ⟨?_, ?_, written.key⟩
    · intro key bs hk
      rw [Store.peek_put metadata] at hk
      split at hk
      · next he =>
        obtain rfl := Option.some.inj hk
        refine he ▸ ⟨by simp [newIds_of_prepares prepared], data, name, folder,
          p.createdAt.readBack, p.payload.length, Settings.decode_record writable⟩
      · exact written.record key bs hk
    · intro key bs hk i hi
      rw [Store.peek_put metadata] at hk
      split at hk
      · next he => exact he ▸ Store.holdsShard_writeShards prepared.isCut shards hi
      · exact written.shard key bs hk i hi

theorem delete (h : v.Intact s ids) (hex : ∀ id ∈ ids, ∃ message, id = Sha256.hex message)
    (fileId : Text) : (deleteFile fileId v).vault.Intact s ids := by
  change ((deleteFile fileId).run v).2.Intact s ids
  rcases hget : v.metadata.get fileId with failure | found
  · have get : (Action.ask (·.metadata.get fileId)).run v = (.error failure, v) := by
      rw [Action.run_ask, hget]
    rwa [deleteFile, Action.run_bind_error get]
  have scalar : ∀ id ∈ ids, id.isScalar = true := by
    intro id hid
    obtain ⟨message, rfl⟩ := hex id hid
    exact Sha256.isScalar_hex message
  have keys : ∀ key ∈ v.shards.keys, key.isScalar = true := by
    intro key hk
    obtain ⟨id, hid, i, -, rfl⟩ := h.key key hk
    exact isScalar_shardId (scalar id hid) i
  obtain ⟨removed, answer, w, hrun, deleted, -⟩ := run_deleteFile hget (fun key hk _ ↦ keys key hk)
    fun bs hbs ↦ by
      obtain ⟨hid, data, name, folder, createdAt, size, hd⟩ :=
        h.record fileId bs (hbs ▸ Store.peek_of_get hget)
      exact ⟨scalar fileId hid, _, _, hd, rfl⟩
  rw [hrun]
  refine ⟨fun key bs hk ↦ h.record key bs (deleted.metadata.of_peek hk).2, ?_,
    ?_⟩
  · intro key bs hk i hi
    obtain ⟨hne, hk⟩ := deleted.metadata.of_peek hk
    obtain ⟨message, hm⟩ := hex key (h.record key bs hk).1
    exact (h.shard key bs hk i hi).of_peek
      (deleted.peek_other (hm ▸ Sha256.lowLine_notMem_hex message) (by simpa using hne) i)
  · intro key hk
    obtain ⟨bs, hk⟩ := Store.mem_keys_iff.1 hk
    exact h.key key (Store.mem_keys_iff.2 ⟨bs, (deleted.shards.of_peek hk).2⟩)

end Intact

end Vault

namespace Settings

/-- What happens to a vault, and the ids that are made for new files: uploads, deletions, and
changes that touch no stored bytes, as when a store gets full or has room again. -/
inductive Step (s : Settings) (v : Vault) : List Text → Vault → Prop
  | upload (data : Bytes) (name : Text) (folder : Option Text) :
      Step s v (v.newIds data name) (s.upload data name folder v).vault
  | delete (fileId : Text) : Step s v [] (deleteFile fileId v).vault
  | aside (w : Vault) (shards : w.shards.shelf = v.shards.shelf)
      (metadata : w.metadata.shelf = v.metadata.shelf) : Step s v [] w

/-- The vaults that come of empty ones, and all ids that were made for files on the way. -/
inductive Reached (s : Settings) : List Text → Vault → Prop
  | empty (v : Vault) (shards : v.shards.entries = []) (metadata : v.metadata.entries = []) :
      Reached s [] v
  | step {ids newIds : List Text} {v w : Vault} (before : Reached s ids v)
      (next : s.Step v newIds w) : Reached s (newIds ++ ids) w

variable {s : Settings} {ids newIds : List Text} {v w : Vault}

theorem Step.exists_hex (next : s.Step v newIds w) :
    ∀ id ∈ newIds, ∃ message, id = Sha256.hex message := by
  intro id hid
  cases next with
  | upload => exact Vault.exists_hex_of_mem_newIds hid
  | delete => cases hid
  | aside => cases hid

theorem Reached.exists_hex (h : s.Reached ids v) :
    ∀ id ∈ ids, ∃ message, id = Sha256.hex message := by
  induction h with
  | empty => exact fun _ hid ↦ nomatch hid
  | step _ next ih =>
    intro id hid
    rcases List.mem_append.1 hid with hid | hid
    · exact next.exists_hex id hid
    · exact ih id hid

theorem Step.intact (next : s.Step v newIds w) (h : v.Intact s ids)
    (hex : ∀ id ∈ ids, ∃ message, id = Sha256.hex message) : w.Intact s (newIds ++ ids) := by
  cases next with
  | upload data name folder => exact h.upload data name folder
  | delete fileId => exact h.delete hex fileId
  | aside w shards metadata =>
    exact h.of_stores (fun key ↦ by rw [Store.peek, Store.entries, shards]; rfl)
      fun key ↦ by rw [Store.peek, Store.entries, metadata]; rfl

theorem Reached.intact (h : s.Reached ids v) : v.Intact s ids := by
  induction h with
  | empty v shards metadata =>
    refine ⟨?_, ?_, ?_⟩
    · intro key bs hk
      rw [Store.peek, metadata] at hk
      cases hk
    · intro key bs hk
      rw [Store.peek, metadata] at hk
      cases hk
    · intro key hk
      rw [Store.keys, shards] at hk
      cases hk
  | step before next ih => exact next.intact ih before.exists_hex

/-- After any run of uploads and deletions, in which any write may fail, every record can be read,
all shards that it lists are held, and there are no shards but those of uploaded files. -/
theorem Reached.records_and_shards (h : s.Reached ids v) :
    (∀ fileId bs, v.metadata.peek fileId = some bs → ∃ m, Metadata.decode (.bytes bs) = .ok m ∧
      m.shardIds = (List.range s.layout.total).map (fun i : Nat ↦ shardId fileId i) ∧
      ∀ id ∈ m.shardIds, v.shards.HoldsShard s.layout id) ∧
    ∀ key ∈ v.shards.keys, ∃ fileId ∈ ids, ∃ i < s.layout.total, key = shardId fileId i := by
  have intact := h.intact
  refine ⟨?_, intact.key⟩
  intro fileId bs hk
  obtain ⟨-, data, name, folder, createdAt, size, hd⟩ := intact.record fileId bs hk
  refine ⟨_, hd, rfl, ?_⟩
  intro id hid
  obtain ⟨i, hi, rfl⟩ := List.mem_map.1 hid
  exact intact.shard fileId bs hk i (List.mem_range.1 hi)

theorem Reached.records_and_shards_least : ∃ ids v, least.Reached ids v ∧ v.metadata.keys ≠ [] ∧
    (∀ fileId bs, v.metadata.peek fileId = some bs → ∃ m, Metadata.decode (.bytes bs) = .ok m ∧
      m.shardIds = (List.range least.layout.total).map (fun i : Nat ↦ shardId fileId i) ∧
      ∀ id ∈ m.shardIds, v.shards.HoldsShard least.layout id) ∧
    ∀ key ∈ v.shards.keys, ∃ fileId ∈ ids, ∃ i < least.layout.total, key = shardId fileId i := by
  obtain ⟨m, w, hup, -⟩ := download_run_upload_least [7] (by decide)
  obtain ⟨bs, hp, -⟩ := record_of_upload hup
  obtain ⟨-, rfl⟩ := Prod.mk.inj hup
  have reached : least.Reached _ (least.upload [7] "a" none (.fresh .epoch)).vault :=
    .step (.empty (.fresh .epoch) rfl rfl) (.upload [7] "a" none)
  exact ⟨_, _, reached, List.ne_nil_of_mem (Store.mem_keys_iff.2 ⟨bs, hp⟩),
    Reached.records_and_shards reached⟩

end Settings

end ShardVault
