import ShardVault.Catalogue.IndexRecord
import ShardVault.Store.Basic

namespace ShardVault.Index

def save (s : Store) (r : IndexRecord) : Except Failure Store := do
  let written ← r.encode
  s.put r.id (← written.encode)

def find (s : Store) (fileId : Text) : Except Failure (Option IndexRecord) := do
  match ← s.get fileId with
  | none => .ok none
  | some bs => (IndexRecord.decode (.bytes bs)).map some

def list (s : Store) (folder : Option Text) : Except Failure (List IndexRecord) := do
  let records ← s.keys.mapM (find s)
  let wanted := (records.filterMap fun r => r).filter fun r =>
    folder.all fun f => r.folderId == some f
  DateTime.newestFirst (·.modifiedAt) wanted

end ShardVault.Index
