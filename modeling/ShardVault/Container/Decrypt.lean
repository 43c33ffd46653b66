import ShardVault.Container.Basic
import ShardVault.Key.Source

namespace ShardVault.Container

def violated {α : Type} (fault : IntegrityFault) : Except Failure α :=
  .error (.integrity fault)

def openChunk (key : CipherKey) (chunk : Chunk) : Except Failure Bytes := do
  let piece ← chunk.block.decrypt key []
  if ← Text.sameDigest (Sha256.hex piece) chunk.hash then .ok piece
  else violated (.chunkHash chunk.index)

/-- The pieces of chunks, appended to those before, which are held backwards. -/
def openChunks (key : CipherKey) (done : List Bytes) : List Chunk → Except Failure (List Bytes)
  | [] => .ok done.reverse
  | chunk :: chunks =>
    match openChunk key chunk with
    | .error failure => .error failure
    | .ok piece => openChunks key (piece :: done) chunks

/-- The first chunk that is not at its place from a position on, with the position. -/
def firstMoved? (position : Nat) : List Chunk → Option (Int × Nat)
  | [] => none
  | chunk :: chunks =>
    if chunk.index = position then firstMoved? (position + 1) chunks
    else some (chunk.index, position)

def decrypt (deriver : KeyDeriver) (c : Container) : Except Failure Bytes := do
  match firstMoved? 0 c.chunks with
  | some (index, position) => violated (.chunkMoved index position)
  | none =>
    let root ← Merkle.rootOf c.chunkHashes
    if !(← Text.sameDigest root c.merkleRoot) then violated .rootMismatch
    else
      let key ← deriver.fileKey c.fileId
      let pieces ← openChunks key [] c.chunks
      let data := pieces.flatten
      if (data.length : Int) ≠ c.plainSize then violated .fileSize
      else if !(← Text.sameDigest (Sha256.hex data) c.plainHash) then violated .fileHash
      else .ok data

/-- The piece of a file in the chunk at a position, which must be covered by the root. -/
def decryptChunk (deriver : KeyDeriver) (c : Container) (index : Int) : Except Failure Bytes :=
  match if index < 0 then none else c.chunks[index.toNat]? with
  | none => .error (.outOfRange (.chunk index))
  | some chunk => do
    let path ← Merkle.pathOf c.chunkHashes index
    if ← Merkle.verify chunk.hash path c.merkleRoot then
      let key ← deriver.fileKey c.fileId
      openChunk key chunk
    else violated (.chunkUncovered index)

end ShardVault.Container
