import ShardVault.Vault.Basic

namespace ShardVault

def Vault.peekShard (v : Vault) (key : Text) : Except Failure (Option Shard) := do
  match ← v.shards.get key with
  | none => .ok none
  | some record => ((Shard.decode record).mapError .corruptShard).map some

def containerOf (m : Metadata) : Action (Layout × Container) := do
  let layout ← .ofResult (Layout.of m.dataShards m.parityShards)
  let shards ← Action.ask fun v => m.dataIds.mapM v.peekShard
  Action.tell (layout.events shards none)
  let c ← .ofResult (layout.reconstruct shards none)
  return (layout, c)

def replaceShards (layout : Layout) (fileId : Text) (c : Container) : Action Unit := do
  let (shards, told) ← .ofResult (layout.create c)
  Action.tell [told]
  (shards.map fun shard => { shard with fileId }).forM fun shard => do
    Action.putShard shard.id (← .ofResult shard.encode)

end ShardVault
