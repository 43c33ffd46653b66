import ShardVault.Cipher.SealedBlock
import ShardVault.Digest.Merkle
import ShardVault.Time.DateTime

namespace ShardVault

/-- A sealed piece of a file, its place, and the hash of what is sealed. -/
structure Chunk where
  index : Int
  block : SealedBlock
  hash : Text
  deriving DecidableEq, Repr

/-- A file in sealed chunks. The root is that of the tree over the hashes of the chunks, and the
hash and the size are those of the whole file. -/
structure Container where
  fileId : Text
  chunks : List Chunk
  merkleRoot : Text
  plainHash : Text
  plainSize : Int
  chunkSize : Int
  createdAt : DateTime
  deriving DecidableEq, Repr

namespace Container

def chunkHashes (c : Container) : List Text :=
  c.chunks.map (·.hash)

def shown (c : Container) : Text :=
  "EncryptedFileContainer(file_id=" ++ Text.quoted (c.fileId.take 12) ++ ", chunks=" ++
    Text.ofNat c.chunks.length ++ ")"

end Container

end ShardVault
