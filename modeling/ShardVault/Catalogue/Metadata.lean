import ShardVault.Catalogue.Document

namespace ShardVault

/-- What is needed to find, rebuild and check a stored file. -/
structure Metadata where
  fileId : Text
  fileName : Text
  plainSize : Int
  encryptedSize : Int
  merkleRoot : Text
  plainHash : Text
  shardIds : List Text
  totalShards : Int
  dataShards : Int
  parityShards : Int
  createdAt : DateTime
  status : FileStatus
  folderId : Option Text
  deriving DecidableEq, Repr

namespace Metadata

def formVersion : Int := 1

def toJson (m : Metadata) : Json :=
  .object [("version", .int formVersion), ("fileId", .text m.fileId),
    ("fileName", .text m.fileName), ("originalSize", .int m.plainSize),
    ("encryptedSize", .int m.encryptedSize), ("merkleRoot", .text m.merkleRoot),
    ("originalHash", .text m.plainHash), ("shardIds", .list (m.shardIds.map .text)),
    ("totalShards", .int m.totalShards), ("dataShards", .int m.dataShards),
    ("parityShards", .int m.parityShards), ("folderId", Document.ofOption m.folderId),
    ("createdAt", .text m.createdAt.shown), ("status", .text m.status.name)]

def encode (m : Metadata) : Except Failure Text :=
  Json.encode Json.record m.toJson

def texts? (items : List Json) : Option (List Text) :=
  items.mapM fun
    | .text t => some t
    | _ => none

def checked (m : Metadata) : Except Failure Metadata :=
  if m.totalShards ≠ m.shardIds.length then Document.corrupt .totalMismatch
  else if m.dataShards ≤ 0 ∨ m.parityShards ≤ 0 then Document.corrupt .countsNotPositive
  else if m.dataShards + m.parityShards ≠ m.totalShards then Document.corrupt .sumMismatch
  else .ok m

open Document in
def ofFields (fields : Entries Json) : Except Failure Metadata := do
  let version ← ofField (Json.requireInt fields "version")
  if version ≠ formVersion then corrupt (.version version)
  else
    match texts? (← ofField (Json.requireList fields "shardIds")) with
    | none => corrupt .shardIdsNotText
    | some shardIds =>
      let fileId ← ofField (Json.requireText fields "fileId")
      let fileName ← ofField (Json.requireText fields "fileName")
      let plainSize ← ofField (Json.requireInt fields "originalSize")
      let encryptedSize ← ofField (Json.requireInt fields "encryptedSize")
      let merkleRoot ← ofField (Json.requireText fields "merkleRoot")
      let plainHash ← ofField (Json.requireText fields "originalHash")
      let totalShards ← ofField (Json.requireInt fields "totalShards")
      let dataShards ← ofField (Json.requireInt fields "dataShards")
      let parityShards ← ofField (Json.requireInt fields "parityShards")
      let folderId ← ofField (Json.requireText? fields "folderId")
      let createdAt ← readTime (← ofField (Json.requireText fields "createdAt"))
      let status ← readStatus (← ofField (Json.requireText fields "status"))
      checked ⟨fileId, fileName, plainSize, encryptedSize, merkleRoot, plainHash, shardIds,
        totalShards, dataShards, parityShards, createdAt, status, folderId⟩

def decode (document : Document) : Except Failure Metadata := do
  ofFields (← document.fields)

def same (a b : Metadata) : Bool :=
  a.createdAt.same b.createdAt && decide ({ a with createdAt := b.createdAt } = b)

def shown (m : Metadata) : Text :=
  "FileMetadata(file_name=" ++ m.fileName.quoted ++ ", size=" ++ Text.ofInt m.plainSize ++
    ", status=" ++ m.status.name ++ ")"

def dataIds (m : Metadata) : List Text :=
  m.shardIds.take m.dataShards.toNat

end Metadata

end ShardVault
