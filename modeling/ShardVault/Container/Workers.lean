import ShardVault.Container.Decrypt
import ShardVault.Container.Encrypt

namespace ShardVault

/-- How many workers share the tasks of a list, and the positions of so many tasks in the order in
which several workers come to them. -/
structure Workers where
  count : Int
  turns : Nat → List Nat
  complete : ∀ tasks : Nat, (turns tasks).Perm (List.range tasks)

namespace Workers

variable {σ α β : Type}

/-- The results of tasks done one after another, each with the state that the one before has left. -/
def inOrder (task : σ → α → β × σ) : σ → List α → List β × σ
  | s, [] => ([], s)
  | s, item :: items =>
    let (result, s) := task s item
    let (results, s) := inOrder task s items
    (result :: results, s)

/-- The results of the tasks at some positions, done in the order of these, with the positions. -/
def inTurns (task : σ → α → β × σ) (s : σ) (items : List α) (turns : List Nat) :
    List (Nat × β) × σ :=
  let numbered (s : σ) (entry : Nat × α) : (Nat × β) × σ :=
    let (result, s) := task s entry.2
    ((entry.1, result), s)
  inOrder numbered s (turns.filterMap fun turn => items[turn]?.map (turn, ·))

def map (w : Workers) (task : σ → α → β × σ) (s : σ) (items : List α) : List β × σ :=
  if 1 < w.count then
    let (done, s) := inTurns task s items (w.turns items.length)
    ((List.range items.length).filterMap fun position => done.lookup position, s)
  else inOrder task s items

end Workers

namespace Container

def sealPiece (key : CipherKey) (nonces : NonceSupply) (item : Bytes × Nat) :
    Chunk × NonceSupply :=
  let (nonce, nonces) := nonces.draw
  (⟨item.2, SealedBlock.encrypt key nonce [] item.1, Sha256.hex item.1⟩, nonces)

/-- The container of a file that workers have sealed, and the nonces that are left. -/
def Encryptor.encryptBy (w : Workers) (e : Encryptor) (data : Bytes) (fileId : Text)
    (nonces : NonceSupply) (createdAt : DateTime) : Except Failure (Container × NonceSupply) := do
  let key ← e.keyFor data fileId
  let pieces := ShardVault.chunks e.chunkSize data
  let (chunks, nonces) := w.map (sealPiece key) nonces pieces.zipIdx
  .ok (e.assemble data fileId chunks createdAt, nonces)

/-- The pieces of chunks. A single worker stops at the first chunk that does not open; of several
workers' failures that of the first chunk counts. -/
def openAll (w : Workers) (key : CipherKey) (chunks : List Chunk) : Except Failure (List Bytes) :=
  if 1 < w.count then
    (w.map (fun (_ : Unit) chunk => (openChunk key chunk, ())) () chunks).1.mapM id
  else openChunks key [] chunks

def decryptBy (w : Workers) (deriver : KeyDeriver) (c : Container) : Except Failure Bytes := do
  match firstMoved? 0 c.chunks with
  | some (index, position) => violated (.chunkMoved index position)
  | none =>
    let root ← Merkle.rootOf c.chunkHashes
    if !(← Text.sameDigest root c.merkleRoot) then violated .rootMismatch
    else
      let key ← deriver.fileKey c.fileId
      let pieces ← openAll w key c.chunks
      let data := pieces.flatten
      if (data.length : Int) ≠ c.plainSize then violated .fileSize
      else if !(← Text.sameDigest (Sha256.hex data) c.plainHash) then violated .fileHash
      else .ok data

end Container

end ShardVault
