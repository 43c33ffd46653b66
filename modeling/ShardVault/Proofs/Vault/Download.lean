import ShardVault.Proofs.Container.Encryption
import ShardVault.Proofs.Shard.Id
import ShardVault.Proofs.Shard.Layout
import ShardVault.Proofs.Store.Laws
import ShardVault.Proofs.Vault.Upload
import ShardVault.Vault.Download

namespace ShardVault

theorem Metadata.hash_of_checkData {m : Metadata} {data data' : Bytes}
    (h : m.checkData data = .ok data') : data = data' ∧ Sha256.hex data' = m.plainHash := by
  obtain ⟨same, hsame, h⟩ := bind_eq_ok.1 h
  cases same with
  | false => cases h
  | true =>
    obtain rfl := Except.ok.inj h
    exact ⟨rfl, Text.eq_of_sameDigest hsame⟩

theorem Metadata.eq_of_checkContainer {m : Metadata} {fileId : Text} {c c' : Container}
    (h : m.checkContainer fileId c = .ok c') : c' = c := by
  unfold checkContainer at h
  split at h
  · cases h
  obtain ⟨same, -, h⟩ := bind_eq_ok.1 h
  cases same with
  | false => cases h
  | true => exact (Except.ok.inj h).symm

namespace Settings

def rebuild (s : Settings) (m : Metadata) (fileId : Text) (shards : List (Option Shard)) :
    Except Failure Bytes := do
  let layout ← Layout.of m.dataShards m.parityShards
  let c ← layout.reconstruct shards (some fileId)
  let c ← m.checkContainer fileId c
  let data ← c.decrypt s.encryptor.deriver
  m.checkData data

def retrieve (s : Settings) (fileId : Text) (v : Vault) : Except Failure Bytes := do
  let m ← v.metadataOf fileId
  if !m.status.isReady then .error (.fileNotReady fileId m.status)
  else
    let shards ← v.dataShards m
    s.rebuild m fileId shards

theorem run_download_eq (s : Settings) (fileId : Text) (v : Vault) :
    (s.download fileId).run v = (s.retrieve fileId v, v) := by
  rw [download, downloadWith, retrieve, Action.run_bind, Action.run_ask]
  rcases v.metadataOf fileId with failure | m
  · rfl
  simp only [ok_bind]
  split
  · rfl
  rw [Action.run_bind, Action.run_ask]
  rcases v.dataShards m with failure | shards
  · rfl
  simp only [ok_bind]
  rw [rebuild, Action.run_bind, Action.run_ofResult]
  rcases Layout.of m.dataShards m.parityShards with failure | layout
  · rfl
  simp only [ok_bind]
  rw [Action.run_bind, Action.run_tell]
  simp only []
  rw [Action.run_bind, Action.run_ofResult]
  rcases layout.reconstruct shards (some fileId) with failure | c
  · rfl
  simp only [ok_bind]
  rw [Action.run_bind, Action.run_ofResult]
  rcases m.checkContainer fileId c with failure | c
  · rfl
  simp only [ok_bind]
  rw [Action.run_bind, Action.run_ofResult]
  rcases c.decrypt s.encryptor.deriver with failure | data
  · rfl
  simp only [ok_bind]
  rw [Action.run_bind, Action.run_tell]
  simp only []
  rw [Action.run_bind, Action.run_ofResult]
  rcases m.checkData data with failure | data <;> rfl

theorem answer_download (s : Settings) (fileId : Text) (v : Vault) :
    (s.download fileId v).answer = s.retrieve fileId v :=
  congrArg Prod.fst (s.run_download_eq fileId v)

theorem retrieve_eq_ok {s : Settings} {fileId : Text} {v : Vault} {data : Bytes}
    (h : s.retrieve fileId v = .ok data) : ∃ m shards, v.metadataOf fileId = .ok m ∧
      m.status.isReady = true ∧ v.dataShards m = .ok shards ∧
      s.rebuild m fileId shards = .ok data := by
  obtain ⟨m, hm, h⟩ := bind_eq_ok.1 h
  split at h
  · cases h
  next ready =>
  obtain ⟨shards, hs, h⟩ := bind_eq_ok.1 h
  exact ⟨m, shards, hm, by simpa using ready, hs, h⟩

theorem hash_of_download {s : Settings} {fileId : Text} {v w : Vault} {data : Bytes}
    (h : (s.download fileId).run v = (.ok data, w)) :
    ∃ m, v.metadataOf fileId = .ok m ∧ Sha256.hex data = m.plainHash := by
  rw [run_download_eq] at h
  obtain ⟨m, shards, hm, -, -, h⟩ := retrieve_eq_ok (Prod.mk.inj h).1
  obtain ⟨layout, -, h⟩ := bind_eq_ok.1 h
  obtain ⟨c, -, h⟩ := bind_eq_ok.1 h
  obtain ⟨c', -, h⟩ := bind_eq_ok.1 h
  obtain ⟨opened, -, h⟩ := bind_eq_ok.1 h
  exact ⟨m, hm, (Metadata.hash_of_checkData h).2⟩

end Settings

theorem Layout.IsCut.isScalar_id {l : Layout} {fileId : Text} {payload : Bytes}
    {shards : List Shard} (h : l.IsCut fileId payload shards) (hid : fileId.isScalar = true) :
    ∀ shard ∈ shards, shard.id.isScalar = true := by
  intro shard hs
  obtain ⟨i, -, he⟩ := h.exists_id hs
  exact he ▸ isScalar_shardId hid i

/-- What became of a file on its way into the store of shards. -/
structure StoredForm where
  key : CipherKey
  chunks : List Chunk
  sealedAt : DateTime
  payload : Bytes
  shards : List Shard

/-- The shards of a file are stored, and are those of a container that opens to the file. -/
structure Vault.HoldsFile (v : Vault) (s : Settings) (fileId : Text) (data : Bytes)
    (form : StoredForm) : Prop where
  hasKey : s.encryptor.deriver.fileKey fileId = .ok form.key
  isSealed : Container.Sealed form.key 0 (chunks s.encryptor.chunkSize data) form.chunks
  decodes : Container.decode form.payload =
    .ok (s.encryptor.assemble data fileId form.chunks form.sealedAt)
  isCut : s.layout.IsCut fileId form.payload form.shards
  stored : ∀ shard ∈ form.shards,
    ∃ bs, v.shards.peek shard.id = some bs ∧ Shard.decode bs = .ok shard

def Prepared.form (p : Prepared) (s : Settings) (data : Bytes) (nonces : NonceSupply) :
    StoredForm :=
  ⟨p.key, (s.encryptor.seal p.key data nonces).1, p.sealedAt.readBack, p.payload, p.shards⟩

theorem Prepared.isSealed (p : Prepared) (s : Settings) (data : Bytes) (nonces : NonceSupply) :
    Container.Sealed p.key 0 (chunks s.encryptor.chunkSize data) (p.form s data nonces).chunks :=
  s.encryptor.seal_sealed p.key data nonces

namespace Settings.Prepares

variable {s : Settings} {v : Vault} {data : Bytes} {name : Text} {p : Prepared}

theorem isScalar_id (h : s.Prepares v data name p) : p.id.isScalar = true :=
  isScalar_of_fileId h.id

theorem fileKey (h : s.Prepares v data name p) : s.encryptor.deriver.fileKey p.id = .ok p.key :=
  (Container.Encryptor.keyFor_eq_ok_iff.1 h.key).2

theorem decodes (h : s.Prepares v data name p) : Container.decode p.payload =
    .ok (s.encryptor.assemble data p.id (p.form s data v.nonces).chunks p.sealedAt.readBack) :=
  Container.decode_of_encode (Container.sound_assemble p.sealedAt h.isScalar_id
    (p.isSealed s data v.nonces)) h.payload

theorem holdsFile (h : s.Prepares v data name p) {w : Vault} (stored : ∀ shard ∈ p.shards,
    ∃ bs, w.shards.peek shard.id = some bs ∧ Shard.decode bs = .ok shard) :
    w.HoldsFile s p.id data (p.form s data v.nonces) :=
  ⟨h.fileKey, p.isSealed s data v.nonces, h.decodes, h.isCut, stored⟩

end Settings.Prepares

theorem Vault.loadShard_eq {v : Vault} {key : Text} {bs : Bytes} {shard : Shard}
    (hk : key.isScalar = true) (hp : v.shards.peek key = some bs)
    (hd : Shard.decode bs = .ok shard) (hid : shard.id = key) :
    v.loadShard key = .ok (some shard) := by
  rw [loadShard, Store.get_of_isScalar hk, hp, ok_bind]
  simp only [hd, mapError_ok, ok_bind, hid, if_true]

theorem Vault.dataShards_eq {v : Vault} {m : Metadata} {shards : List Shard}
    (ids : m.dataIds = shards.map (·.id)) (scalar : ∀ shard ∈ shards, shard.id.isScalar = true)
    (stored : ∀ shard ∈ shards,
      ∃ bs, v.shards.peek shard.id = some bs ∧ Shard.decode bs = .ok shard) :
    v.dataShards m = .ok (shards.map some) := by
  have load : ∀ shard ∈ shards, v.loadShard shard.id = .ok (some shard) := by
    intro shard hs
    obtain ⟨bs, hp, hdec⟩ := stored shard hs
    exact Vault.loadShard_eq (scalar shard hs) hp hdec rfl
  rw [Vault.dataShards, ids, List.mapM_map]
  exact mapM_eq_ok load

theorem Layout.IsCut.dataShards {l : Layout} {fileId : Text} {payload : Bytes}
    {shards : List Shard} (cut : l.IsCut fileId payload shards) (hid : fileId.isScalar = true)
    {m : Metadata} (hm : m.shardIds = (List.range l.total).map fun i : Nat ↦ shardId fileId i)
    (hd : m.dataShards = l.data) {v : Vault} (stored : ∀ shard ∈ shards.take l.data,
      ∃ bs, v.shards.peek shard.id = some bs ∧ Shard.decode bs = .ok shard) :
    v.dataShards m = .ok ((shards.take l.data).map some) := by
  refine Vault.dataShards_eq ?_ ?_ stored
  · rw [Metadata.dataIds, hm, hd, Int.toNat_natCast, ← cut.ids, List.map_take]
  · intro shard hs
    exact cut.isScalar_id hid shard (List.mem_of_mem_take hs)

namespace Settings

variable {s : Settings} {v : Vault} {fileId name : Text} {data : Bytes} {folder : Option Text}
  {createdAt : DateTime} {size : Nat} {form : StoredForm}

theorem layout_metadataOf : Layout.of (s.metadataOf data name folder fileId createdAt size).dataShards
    (s.metadataOf data name folder fileId createdAt size).parityShards = .ok s.layout := by
  have := s.layout.dataPositive
  have := s.layout.parityPositive
  rw [Layout.of, dif_pos (by simp only [metadataOf]; omega)]
  rfl

theorem checkContainer_metadataOf {key : CipherKey} {sealedChunks : List Chunk}
    (h : Container.Sealed key 0 (chunks s.encryptor.chunkSize data) sealedChunks)
    (sealedAt : DateTime) :
    (s.metadataOf data name folder fileId createdAt size).checkContainer fileId
      (s.encryptor.assemble data fileId sealedChunks sealedAt) =
        .ok (s.encryptor.assemble data fileId sealedChunks sealedAt) := by
  have same := Text.sameDigest_self (Container.isScalar_merkleRoot h)
  simp only [Metadata.checkContainer, Container.Encryptor.assemble, metadataOf, ne_eq,
    not_true_eq_false, if_false]
  rw [← h.hashes, same]
  rfl

theorem checkData_metadataOf :
    (s.metadataOf data name folder fileId createdAt size).checkData data = .ok data := by
  simp only [Metadata.checkData, metadataOf, Text.sameDigest_self (Sha256.isScalar_hex data),
    ok_bind, if_true]

theorem rebuild_metadataOf (hasKey : s.encryptor.deriver.fileKey fileId = .ok form.key)
    (isSealed : Container.Sealed form.key 0 (chunks s.encryptor.chunkSize data) form.chunks)
    (decodes : Container.decode form.payload =
      .ok (s.encryptor.assemble data fileId form.chunks form.sealedAt))
    (isCut : s.layout.IsCut fileId form.payload form.shards) :
    s.rebuild (s.metadataOf data name folder fileId createdAt size) fileId
      ((form.shards.take s.layout.data).map some) = .ok data := by
  rw [rebuild, layout_metadataOf, ok_bind, isCut.reconstruct.trans decodes, ok_bind,
    checkContainer_metadataOf isSealed, ok_bind, Container.decrypt_assemble hasKey isSealed,
    ok_bind, checkData_metadataOf]

theorem run_download (hid : fileId.isScalar = true)
    (hm : v.metadataOf fileId = .ok (s.metadataOf data name folder fileId createdAt size))
    (h : v.HoldsFile s fileId data form) :
    (s.download fileId).run v = (.ok data, v) := by
  have ready : (s.metadataOf data name folder fileId createdAt size).status.isReady = true := rfl
  have shards : v.dataShards (s.metadataOf data name folder fileId createdAt size) = _ :=
    h.isCut.dataShards hid rfl rfl fun shard hs ↦ h.stored shard (List.mem_of_mem_take hs)
  rw [run_download_eq, retrieve, hm, ok_bind, ready, if_neg (by decide), shards, ok_bind,
    rebuild_metadataOf h.hasKey h.isSealed h.decodes h.isCut]

end Settings

end ShardVault
