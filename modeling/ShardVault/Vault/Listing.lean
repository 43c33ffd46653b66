import ShardVault.Binary64
import ShardVault.Vault.Basic

namespace ShardVault

def Vault.list (v : Vault) (folder : Option Text) : Except Failure (List Metadata) := do
  let files ← v.metadata.keys.mapM v.metadataOf
  DateTime.newestFirst (·.createdAt)
    (files.filter fun m => folder.all fun f => m.folderId == some f)

structure Totals where
  files : Nat
  plainSize : Int
  encryptedSize : Int
  shards : Int
  deriving DecidableEq, Repr

def Totals.of (files : List Metadata) : Totals where
  files := files.length
  plainSize := files.foldr (fun m n => m.plainSize + n) 0
  encryptedSize := files.foldr (fun m n => m.encryptedSize + n) 0
  shards := files.foldr (fun m n => m.totalShards + n) 0

def Totals.overhead (t : Totals) : Except Failure Binary64 :=
  if t.plainSize ≤ 0 then .ok (Binary64.ofMagnitude false 0)
  else
    let excess := t.encryptedSize - t.plainSize
    match Binary64.ofRatio? (excess < 0) excess.natAbs t.plainSize.natAbs with
    | some x => .ok x
    | none => .error (.overflow .ratio)

def Vault.totals (v : Vault) : Except Failure (Totals × Binary64) := do
  let totals := Totals.of (← v.list none)
  .ok (totals, ← totals.overhead)

end ShardVault
