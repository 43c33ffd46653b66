import ShardVault.Catalogue.FileId
import ShardVault.Catalogue.Name
import ShardVault.Vault.Basic

namespace ShardVault

def FileStatus.advance (source target : FileStatus) : Except Failure FileStatus :=
  if source.canMoveTo target then .ok target else .error (.illegalMove source target)

/-- An upload under way: its file, where that stands, and how many shards are written. -/
structure Upload where
  fileId : Text
  status : FileStatus
  written : Nat

namespace Upload

def start (fileId : Text) : Upload :=
  ⟨fileId, .pending, 0⟩

def failedEvents (u : Upload) (status : FileStatus) : List Event :=
  .uploadFailed u.fileId status u.written ::
    if u.written = 0 then [] else [.orphaned u.fileId (List.range u.written)]

def step {α : Type} (u : Upload) (action : Action α) : Action α := fun v =>
  let reply := action v
  match reply.answer, u.status.advance .error with
  | .error _, .ok status => { reply with events := reply.events ++ u.failedEvents status }
  | .error _, .error failure => { reply with answer := .error failure }
  | .ok _, _ => reply

def moveTo (u : Upload) (target : FileStatus) : Action Upload := do
  let status ← u.step (.ofResult (u.status.advance target))
  return { u with status }

def putShards (u : Upload) : List Shard → Action Upload
  | [] => return u
  | shard :: shards => do
    u.step (do Action.putShard shard.id (← .ofResult shard.encode))
    putShards { u with written := u.written + 1 } shards

end Upload

def Settings.encrypt (s : Settings) (data : Bytes) (fileId : Text) : Action Container := do
  let key ← .ofResult (s.encryptor.keyFor data fileId)
  let chunks ← Action.change fun v =>
    let (chunks, nonces) := s.encryptor.seal key data v.nonces
    .ok (chunks, { v with nonces })
  let time ← Action.now
  Action.tell [.encrypted fileId data.length chunks.length]
  return s.encryptor.assemble data fileId chunks time

def Settings.cut (s : Settings) (c : Container) : Action (List Shard) := do
  let (shards, told) ← .ofResult (s.layout.create c)
  Action.tell [told]
  return shards

/-- The metadata of a file that was put into a container and cut into shards. -/
def Settings.describe (s : Settings) (data : Bytes) (name : Text) (folder : Option Text)
    (createdAt : DateTime) (status : FileStatus) (c : Container) (shards : List Shard) :
    Metadata where
  fileId := c.fileId
  fileName := name
  plainSize := data.length
  encryptedSize := ((shards.filter (!·.isParity)).foldr (fun s n => s.data.length + n) 0 : Nat)
  merkleRoot := c.merkleRoot
  plainHash := c.plainHash
  shardIds := shards.map (·.id)
  totalShards := shards.length
  dataShards := s.layout.data
  parityShards := s.layout.parity
  createdAt := createdAt
  status := status
  folderId := folder

def Settings.store (s : Settings) (fileId : Text) (data : Bytes) (name : Text)
    (folder : Option Text) (createdAt : DateTime) : Action Metadata := do
  let u ← (Upload.start fileId).moveTo .encrypting
  let c ← u.step (s.encrypt data fileId)
  let shards ← u.step (s.cut c)
  let u ← u.putShards shards
  let u ← u.moveTo .encrypted
  let m := s.describe data name folder createdAt u.status c shards
  u.step do
    let written ← .ofResult m.encode
    Action.putMetadata fileId (← .ofResult written.encode)
  return m

def Metadata.listing (m : Metadata) : IndexRecord where
  id := m.fileId
  name := m.fileName
  size := m.plainSize
  mimeType := ShardVault.mimeType m.fileName
  createdAt := m.createdAt
  modifiedAt := m.createdAt
  status := m.status
  folderId := m.folderId
  path := []

def Settings.upload (s : Settings) (data : Bytes) (name : Text) (folder : Option Text) :
    Action Metadata := do
  let name ← .ofResult ((TextRule.fileName.checkText name).mapError .validation)
  let createdAt ← Action.now
  let id ← .ofResult (fileId data name createdAt)
  let m ← s.store id data name folder createdAt
  Action.onIndex fun index => Index.save index m.listing
  Action.tell [.stored id data.length m.shardIds.length]
  return m

end ShardVault
