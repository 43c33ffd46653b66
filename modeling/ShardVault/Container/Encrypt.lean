import ShardVault.Container.Basic
import ShardVault.Key.Source

namespace ShardVault

def splitChunks (data : Bytes) (size : Int) : Except Failure (List Bytes) :=
  if size = 0 then .error (.invalid .zeroStep)
  else .ok (if size < 0 then [] else chunks size.toNat data)

namespace Container

/-- What encryption needs: the source of file keys and the size of a chunk. -/
structure Encryptor where
  deriver : KeyDeriver
  chunkSize : Nat
  positive : 0 < chunkSize

theorem Encryptor.toNat_pos {size : Int} (h : 0 < size) : 0 < size.toNat := by omega

def Encryptor.of (deriver : KeyDeriver) (chunkSize : Int) : Except Failure Encryptor :=
  if h : 0 < chunkSize then .ok ⟨deriver, chunkSize.toNat, toNat_pos h⟩
  else .error (.invalid .chunkSize)

def maxFileSize : Nat := 10 * 1024 * 1024 * 1024

def Encryptor.keyFor (e : Encryptor) (data : Bytes) (fileId : Text) : Except Failure CipherKey :=
  if maxFileSize < data.length then .error (.invalid (.fileTooLarge maxFileSize))
  else e.deriver.fileKey fileId

/-- The sealed chunks of pieces from an index on, and the nonces that are left. -/
def sealChunks (key : CipherKey) (index : Nat) (nonces : NonceSupply) (done : List Chunk) :
    List Bytes → List Chunk × NonceSupply
  | [] => (done.reverse, nonces)
  | piece :: pieces =>
    let (nonce, nonces) := nonces.draw
    let chunk : Chunk := ⟨index, SealedBlock.encrypt key nonce [] piece, Sha256.hex piece⟩
    sealChunks key (index + 1) nonces (chunk :: done) pieces

def Encryptor.seal (e : Encryptor) (key : CipherKey) (data : Bytes) (nonces : NonceSupply) :
    List Chunk × NonceSupply :=
  sealChunks key 0 nonces [] (ShardVault.chunks e.chunkSize data)

def Encryptor.assemble (e : Encryptor) (data : Bytes) (fileId : Text) (chunks : List Chunk)
    (createdAt : DateTime) : Container :=
  { fileId, chunks, createdAt
    merkleRoot := Merkle.root (chunks.map (·.hash))
    plainHash := Sha256.hex data
    plainSize := data.length
    chunkSize := e.chunkSize }

/-- The container of a file at a point in time, and the nonces that are left. -/
def Encryptor.encrypt (e : Encryptor) (data : Bytes) (fileId : Text) (nonces : NonceSupply)
    (createdAt : DateTime) : Except Failure (Container × NonceSupply) := do
  let key ← e.keyFor data fileId
  let (chunks, nonces) := e.seal key data nonces
  .ok (e.assemble data fileId chunks createdAt, nonces)

end Container

end ShardVault
