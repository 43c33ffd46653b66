import ShardVault.Digest.Sha256

namespace ShardVault

/-- The key as one block of the hash: hashed if it is longer, then filled up with zeros. -/
def Hmac.block (key : Bytes) : Bytes :=
  (if 64 < key.length then Sha256.digest key else key).padTo 64

def Hmac.digest (key message : Bytes) : Bytes :=
  let block := Hmac.block key
  Sha256.digest (block.map (· ^^^ 0x5C) ++ Sha256.digest (block.map (· ^^^ 0x36) ++ message))

def Hkdf.derive (secret salt info : Bytes) : Bytes :=
  Hmac.digest (Hmac.digest salt secret) (info ++ [1])

@[simp] theorem Hmac.length_digest (key message : Bytes) : (Hmac.digest key message).length = 32 := by
  simp [Hmac.digest]

@[simp] theorem Hkdf.length_derive (secret salt info : Bytes) :
    (Hkdf.derive secret salt info).length = 32 := by
  simp [Hkdf.derive]

end ShardVault
