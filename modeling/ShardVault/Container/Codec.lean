import ShardVault.Container.Basic
import ShardVault.Json.Fields
import ShardVault.Json.Reader
import ShardVault.Json.Writer
import ShardVault.Time.Reader

namespace ShardVault.Container

def magic : Bytes :=
  Utf8.encodeAll "LDEC"

def formVersion : Nat := 1

def entry (chunk : Chunk) : Json :=
  .object [("index", .int chunk.index), ("originalHash", .text chunk.hash),
    ("length", .int chunk.block.encode.length)]

def header (c : Container) : Json :=
  .object [("fileId", .text c.fileId), ("merkleRoot", .text c.merkleRoot),
    ("originalHash", .text c.plainHash), ("originalSize", .int c.plainSize),
    ("chunkSize", .int c.chunkSize), ("createdAt", .text c.createdAt.shown),
    ("chunks", .list (c.chunks.map entry))]

/-- A container as a byte string. The length of its header must fit four bytes. -/
def encode (c : Container) : Except Failure Bytes := do
  let written ← Json.encode Json.compact c.header
  let headerBytes ← written.encode
  if 0x100000000 ≤ headerBytes.length then .error .unpackable
  else
    .ok (magic ++ Bytes.ofNat 2 formVersion ++ Bytes.ofNat 4 headerBytes.length ++ headerBytes ++
      c.chunks.flatMap (·.block.encode))

def corrupt {α : Type} (fault : ContainerFault) : Except Failure α :=
  .error (.corruptContainer fault)

def ofField {α : Type} (field : Except FieldFault α) : Except Failure α :=
  field.mapError fun fault => .corruptContainer (.field fault)

def readTime (t : Text) : Except Failure DateTime :=
  match DateTime.ofText? t with
  | some time => .ok time
  | none => corrupt (.timestamp t)

def splitAt? (count : Int) (bs : Bytes) : Option (Bytes × Bytes) :=
  let taken := bs.take count.toNat
  if count < 0 || taken.length < count.toNat then none else some (taken, bs.drop count.toNat)

def readChunk (position : Nat) (entry : Json) (bs : Bytes) : Except Failure (Chunk × Bytes) :=
  match entry with
  | .object fields => do
    let index ← ofField (Json.requireInt fields "index")
    if index ≠ position then corrupt (.outOfOrder position)
    else
      let length ← ofField (Json.requireInt fields "length")
      match splitAt? length bs with
      | none => corrupt (.overrun position)
      | some (own, rest) =>
        let block ← (SealedBlock.decode own).mapError fun fault => .corruptContainer (.block fault)
        let hash ← ofField (Json.requireText fields "originalHash")
        .ok (⟨index, block, hash⟩, rest)
  | _ => corrupt (.entryNotObject position)

/-- The chunks of all entries from a position on, and what is left of the bytes. -/
def readChunks (position : Nat) (done : List Chunk) :
    List Json → Bytes → Except Failure (List Chunk × Bytes)
  | [], bs => .ok (done.reverse, bs)
  | entry :: entries, bs =>
    match readChunk position entry bs with
    | .error failure => .error failure
    | .ok (chunk, rest) => readChunks (position + 1) (chunk :: done) entries rest

def readHeader (bs : Bytes) : Except Failure (Entries Json) :=
  match Utf8.decode bs with
  | none => corrupt .notJson
  | some t =>
    match Json.ofText t with
    | .ok (.object fields) => .ok fields
    | .ok _ => corrupt .notObject
    | .error .malformed => corrupt .notJson
    | .error .tooDeep => .error .tooDeep
    | .error (.tooManyDigits count) => .error (.invalid (.numeral (.tooManyDigits count)))

def ofHeader (fields : Entries Json) (body : Bytes) : Except Failure Container := do
  let fileId ← ofField (Json.requireText fields "fileId")
  let merkleRoot ← ofField (Json.requireText fields "merkleRoot")
  let plainHash ← ofField (Json.requireText fields "originalHash")
  let plainSize ← ofField (Json.requireInt fields "originalSize")
  let chunkSize ← ofField (Json.requireInt fields "chunkSize")
  let createdAt ← readTime (← ofField (Json.requireText fields "createdAt"))
  let table ← ofField (Json.requireList fields "chunks")
  if plainSize < 0 ∨ chunkSize ≤ 0 then corrupt .sizes
  else
    let (chunks, rest) ← readChunks 0 [] table body
    if rest.isEmpty then
      .ok ⟨fileId, chunks, merkleRoot, plainHash, plainSize, chunkSize, createdAt⟩
    else corrupt .trailing

def decode (bs : Bytes) : Except Failure Container :=
  if bs.length < 10 then corrupt .tooShort
  else if bs.take 4 ≠ magic then corrupt .badMagic
  else
    let version := Bytes.toNat ((bs.drop 4).take 2)
    if version ≠ formVersion then corrupt (.version version)
    else
      let size := Bytes.toNat ((bs.drop 6).take 4)
      match splitAt? size (bs.drop 10) with
      | none => corrupt .truncatedHeader
      | some (headerBytes, body) => do
        let fields ← readHeader headerBytes
        ofHeader fields body

end ShardVault.Container
