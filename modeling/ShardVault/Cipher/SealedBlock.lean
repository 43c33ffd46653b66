import ShardVault.Cipher.Gcm
import ShardVault.Failure

namespace ShardVault

structure CipherKey where
  bytes : Bytes
  size : bytes.length = 32
  deriving DecidableEq

def CipherKey.ofBytes (bs : Bytes) : Except Failure CipherKey :=
  if h : bs.length = 32 then .ok ⟨bs, h⟩ else .error (.invalid .keySize)

structure Nonce where
  bytes : Bytes
  size : bytes.length = 12
  deriving DecidableEq

def Nonce.ofNat (n : Nat) : Nonce :=
  ⟨Bytes.ofNat 12 n, by simp⟩

/-- Where nonces come from: all that are ever drawn, in order, and how many were drawn so far. -/
structure NonceSupply where
  nonce : Nat → Nonce
  drawn : Nat

/-- A supply that spells numbers: the same one again and again, or one after another. -/
def NonceSupply.counting (first : Nat) (advances : Bool) : NonceSupply :=
  ⟨fun n => Nonce.ofNat (if advances then first + n else first), 0⟩

def NonceSupply.draw (supply : NonceSupply) : Nonce × NonceSupply :=
  (supply.nonce supply.drawn, { supply with drawn := supply.drawn + 1 })

/-- Hidden bytes with what is needed to open them. Nonce and tag may have any length, since a block
may have been read from anywhere. -/
structure SealedBlock where
  ciphertext : Bytes
  nonce : Bytes
  tag : Bytes
  deriving DecidableEq, Repr

namespace SealedBlock

def encrypt (key : CipherKey) (nonce : Nonce) (associated text : Bytes) : SealedBlock :=
  let (hidden, tag) := Gcm.encrypt key.bytes nonce.bytes associated text
  ⟨hidden, nonce.bytes, tag⟩

def decrypt (key : CipherKey) (associated : Bytes) (block : SealedBlock) : Except Failure Bytes :=
  if block.nonce.length ≠ 12 ∨ block.tag.length ≠ 16 then .error (.authentication .malformed)
  else
    match Gcm.decrypt? key.bytes block.nonce associated block.ciphertext block.tag with
    | some text => .ok text
    | none => .error (.authentication .mismatch)

def encode (block : SealedBlock) : Bytes :=
  Bytes.ofNat 4 block.nonce.length ++ block.nonce ++
    Bytes.ofNat 4 block.tag.length ++ block.tag ++ block.ciphertext

/-- Bytes after their length in four bytes, and what follows them. `offset` and `size` place them in
the whole for the fault that is reported. -/
def takeSized (offset size : Nat) (truncated : BlockFault) (bs : Bytes) :
    Except BlockFault (Bytes × Bytes) :=
  if bs.length < 4 then .error (.shortLength offset size)
  else
    let count := Bytes.toNat (bs.take 4)
    let body := bs.drop 4
    if body.length < count then .error truncated else .ok (body.take count, body.drop count)

def decode (bs : Bytes) : Except BlockFault SealedBlock := do
  let (nonce, rest) ← takeSized 0 bs.length .truncatedNonce bs
  let (tag, rest) ← takeSized (4 + nonce.length) bs.length .truncatedTag rest
  .ok ⟨rest, nonce, tag⟩

def shown (block : SealedBlock) : Text :=
  "EncryptedData(ciphertext_len=" ++ Text.ofNat block.ciphertext.length ++ ")"

end SealedBlock

end ShardVault
