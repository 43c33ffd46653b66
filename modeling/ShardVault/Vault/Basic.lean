import ShardVault.Catalogue.Metadata
import ShardVault.Config.Section
import ShardVault.Container.Encrypt
import ShardVault.Event
import ShardVault.Shard.Layout
import ShardVault.Store.Index
import ShardVault.Time.Clock

namespace ShardVault

/-- Three stores, the last of which may be missing, a clock and a supply of nonces. -/
structure Vault where
  shards : Store
  metadata : Store
  index : Option Store
  clock : Clock
  nonces : NonceSupply

structure Settings where
  encryptor : Container.Encryptor
  layout : Layout

def Settings.of (crypto : CryptoSection) (erasure : ErasureSection) (source : KeySource) :
    Settings where
  encryptor := ⟨⟨source, crypto.keyInfo⟩, crypto.chunkSize, crypto.sizePositive⟩
  layout := ⟨erasure.dataShards, erasure.parityShards, erasure.dataPositive,
    erasure.parityPositive⟩

structure Reply (α : Type) where
  answer : Except Failure α
  vault : Vault
  events : List Event

def Action (α : Type) := Vault → Reply α

namespace Action

variable {α β : Type}

def ofResult (answer : Except Failure α) : Action α :=
  fun v => ⟨answer, v, []⟩

/-- One operation after another, the second only if the first has an answer. -/
def andThen (first : Action α) (next : α → Action β) : Action β := fun v =>
  match first v with
  | ⟨.error failure, v, told⟩ => ⟨.error failure, v, told⟩
  | ⟨.ok a, v, told⟩ =>
    let reply := next a v
    { reply with events := told ++ reply.events }

instance : Monad Action where
  pure a := ofResult (.ok a)
  bind := andThen

def fail (failure : Failure) : Action α :=
  ofResult (.error failure)

def ask (question : Vault → Except Failure α) : Action α :=
  fun v => ⟨question v, v, []⟩

def change (step : Vault → Except Failure (α × Vault)) : Action α := fun v =>
  match step v with
  | .ok (a, after) => ⟨.ok a, after, []⟩
  | .error failure => ⟨.error failure, v, []⟩

def tell (events : List Event) : Action Unit :=
  fun v => ⟨.ok (), v, events⟩

def now : Action DateTime :=
  change fun v => v.clock.read.map fun (time, clock) => (time, { v with clock })

def onShards (step : Store → Except Failure (α × Store)) : Action α :=
  change fun v => (step v.shards).map fun (a, shards) => (a, { v with shards })

def onMetadata (step : Store → Except Failure (α × Store)) : Action α :=
  change fun v => (step v.metadata).map fun (a, metadata) => (a, { v with metadata })

def onIndex (step : Store → Except Failure Store) : Action Unit :=
  change fun v =>
    match v.index with
    | none => .ok ((), v)
    | some index => (step index).map fun index => ((), { v with index := some index })

def putShard (key : Text) (value : Bytes) : Action Unit :=
  onShards fun s => (s.put key value).map fun s => ((), s)

def putMetadata (key : Text) (value : Bytes) : Action Unit :=
  onMetadata fun s => (s.put key value).map fun s => ((), s)

end Action

namespace Vault

def metadataOf (v : Vault) (fileId : Text) : Except Failure Metadata := do
  match ← v.metadata.get fileId with
  | none => .error (.metadataNotFound fileId)
  | some bs => Metadata.decode (.bytes bs)

/-- The shard under a key, if there is one. It must be stored under its own id. -/
def loadShard (v : Vault) (key : Text) : Except Failure (Option Shard) := do
  match ← v.shards.get key with
  | none => .ok none
  | some record =>
    let shard ← (Shard.decode record).mapError .corruptShard
    if shard.id = key then .ok (some shard) else .error (.corruptShard (.misplaced key))

end Vault

end ShardVault
