import ShardVault.Vault.Basic

namespace ShardVault

inductive Finding
  | intact
  | unreadable
  | missing
  | corrupted
  deriving DecidableEq, Repr

def Finding.complaint? (shardId : Text) : Finding → Option Text
  | intact => none
  | unreadable => some ("Shard unreadable: " ++ shardId)
  | missing => some ("Shard missing: " ++ shardId)
  | corrupted => some ("Shard corrupted: " ++ shardId)

def Vault.inspect (v : Vault) (shardId : Text) : Except Failure Finding :=
  match v.loadShard shardId with
  | .ok none => .ok .missing
  | .ok (some shard) => .ok (if shard.verify then .intact else .corrupted)
  | .error (.corruptShard _) => .ok .unreadable
  | .error failure => .error failure

structure Audit where
  fileId : Text
  isValid : Bool
  errors : List Text
  checked : Nat
  valid : Nat
  deriving DecidableEq, Repr

/-- The audit of a file whose shards were found so, in the order of their ids. -/
def Metadata.audit (m : Metadata) (fileId : Text) (findings : List Finding) : Audit where
  fileId := fileId
  isValid := decide (((findings.take m.dataShards.toNat).count .intact : Int) = m.dataShards)
  errors := (List.zipWith Finding.complaint? m.shardIds findings).filterMap fun e => e
  checked := m.shardIds.length
  valid := findings.count .intact

def auditFile (fileId : Text) : Action Audit := do
  let m ← Action.ask (·.metadataOf fileId)
  let findings ← Action.ask fun v => m.shardIds.mapM v.inspect
  let audit := m.audit fileId findings
  Action.tell (if audit.errors.isEmpty then []
    else [.degraded fileId audit.valid audit.checked audit.isValid])
  return audit

end ShardVault
