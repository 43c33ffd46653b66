import ShardVault.Catalogue.Document

namespace ShardVault

structure IndexRecord where
  id : Text
  name : Text
  size : Int
  mimeType : Text
  createdAt : DateTime
  modifiedAt : DateTime
  status : FileStatus
  folderId : Option Text
  path : Text
  deriving DecidableEq, Repr

namespace IndexRecord

def toJson (r : IndexRecord) : Json :=
  .object [("id", .text r.id), ("name", .text r.name), ("path", .text r.path),
    ("size", .int r.size), ("mimeType", .text r.mimeType), ("createdAt", .text r.createdAt.shown),
    ("modifiedAt", .text r.modifiedAt.shown), ("folderId", Document.ofOption r.folderId),
    ("status", .text r.status.name)]

def encode (r : IndexRecord) : Except Failure Text :=
  Json.encode Json.record r.toJson

open Document in
def ofFields (fields : Entries Json) : Except Failure IndexRecord := do
  let id ← ofField (Json.requireText fields "id")
  let name ← ofField (Json.requireText fields "name")
  let path ← ofField (Json.requireText fields "path")
  let size ← ofField (Json.requireInt fields "size")
  let mimeType ← ofField (Json.requireText fields "mimeType")
  let createdAt ← readTime (← ofField (Json.requireText fields "createdAt"))
  let modifiedAt ← readTime (← ofField (Json.requireText fields "modifiedAt"))
  let folderId ← ofField (Json.requireText? fields "folderId")
  let status ← readStatus (← ofField (Json.requireText fields "status"))
  .ok ⟨id, name, size, mimeType, createdAt, modifiedAt, status, folderId, path⟩

def decode (document : Document) : Except Failure IndexRecord := do
  ofFields (← document.fields)

def same (a b : IndexRecord) : Bool :=
  a.createdAt.same b.createdAt && a.modifiedAt.same b.modifiedAt &&
    decide ({ a with createdAt := b.createdAt, modifiedAt := b.modifiedAt } = b)

end IndexRecord

end ShardVault
