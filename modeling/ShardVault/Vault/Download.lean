import ShardVault.Container.Workers
import ShardVault.Vault.Basic

namespace ShardVault

def Metadata.checkContainer (m : Metadata) (fileId : Text) (c : Container) :
    Except Failure Container := do
  if c.fileId ≠ fileId then Container.violated .otherFile
  else if ← Text.sameDigest c.merkleRoot m.merkleRoot then .ok c
  else Container.violated .recordedRoot

def Metadata.checkData (m : Metadata) (data : Bytes) : Except Failure Bytes := do
  if ← Text.sameDigest (Sha256.hex data) m.plainHash then .ok data
  else Container.violated .recordedHash

def Vault.dataShards (v : Vault) (m : Metadata) : Except Failure (List (Option Shard)) :=
  m.dataIds.mapM v.loadShard

def downloadWith (opens : Container → Except Failure Bytes) (fileId : Text) : Action Bytes := do
  let m ← Action.ask (·.metadataOf fileId)
  if !m.status.isReady then Action.fail (.fileNotReady fileId m.status)
  else
    let shards ← Action.ask (·.dataShards m)
    let layout ← .ofResult (Layout.of m.dataShards m.parityShards)
    Action.tell (layout.events shards (some fileId))
    let c ← .ofResult (layout.reconstruct shards (some fileId))
    let c ← .ofResult (m.checkContainer fileId c)
    let data ← .ofResult (opens c)
    Action.tell [.decrypted c.fileId c.chunks.length]
    let data ← .ofResult (m.checkData data)
    Action.tell [.retrieved fileId data.length]
    return data

def Settings.download (s : Settings) : Text → Action Bytes :=
  downloadWith (·.decrypt s.encryptor.deriver)

def Settings.downloadBy (s : Settings) (w : Workers) : Text → Action Bytes :=
  downloadWith (·.decryptBy w s.encryptor.deriver)

end ShardVault
