import ShardVault.Vault.Basic

namespace ShardVault

def shardPrefix (fileId : Text) : Text :=
  fileId ++ "_shard_"

/-- The ids of shards that metadata in a store name; none if they do not decode, which is told. -/
def namedShards (fileId : Text) : Option Bytes → Action (List Text)
  | none => return []
  | some bs =>
    match Metadata.decode (.bytes bs) with
    | .ok m => return m.shardIds
    | .error (.corruptMetadata _) => do
      Action.tell [.unreadable fileId]
      return []
    | .error failure => Action.fail failure

def removeShards : List Text → Action Nat
  | [] => return 0
  | id :: ids => do
    let there ← Action.onShards fun s => s.delete id
    let count ← removeShards ids
    return if there then count + 1 else count

def deleteFile (fileId : Text) : Action Bool := do
  let found ← Action.ask (·.metadata.get fileId)
  let named ← namedShards fileId found
  let ids ←
    if named.isEmpty then
      Action.ask fun v => .ok (v.shards.keys.filter (shardPrefix fileId).isPrefixOf)
    else pure named
  let removed ← removeShards ids
  let _ ← Action.onMetadata fun s => s.delete fileId
  Action.onIndex fun s => (s.delete fileId).map (·.2)
  Action.tell [.deleted fileId removed]
  return found.isSome

end ShardVault
