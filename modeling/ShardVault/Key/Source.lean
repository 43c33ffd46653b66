import ShardVault.Cipher.SealedBlock
import ShardVault.Digest.Hkdf
import ShardVault.Entries
import ShardVault.Text.Encoded
import ShardVault.Text.Trim

namespace ShardVault

abbrev Environment := Entries Text

inductive KeySource
  /-- A key that was checked when it was handed over. -/
  | fixed (key : CipherKey)
  /-- Hexadecimal text in a variable of the environment. -/
  | environment (names : Environment) (name : Text)
  /-- Whatever another party gives, nothing included. -/
  | given (key : Option Bytes)

namespace KeySource

def defaultVariable : Text := "LIBREDRIVE_MASTER_KEY"

def ofBytes (bs : Bytes) : Except Failure KeySource :=
  if h : bs.length = 32 then .ok (.fixed ⟨bs, h⟩) else .error (.invalid .masterKeySize)

def master : KeySource → Except Failure (Option Bytes)
  | fixed key => .ok (some key.bytes)
  | given key => .ok key
  | environment names name =>
    match names.get? name with
    | none => .ok none
    | some value =>
      match Hex.decode value.trim with
      | some key => .ok (some key)
      | none => .error (.keyUnavailable (.notHex name))

def shown : Text := "StaticKeyProvider(key=<hidden>)"

end KeySource

def deriveKey (master : Bytes) (fileId : Text) (info : Bytes) : Except Failure CipherKey :=
  match fileId.encode with
  | .ok salt => .ok ⟨Hkdf.derive master salt info, by simp⟩
  | .error failure => .error failure

/-- The label that keeps file keys apart from other uses of the master key. -/
def defaultKeyInfo : Bytes :=
  Utf8.encodeAll "libredrive-file-key-v1"

/-- Derives the keys of files from what a source gives. -/
structure KeyDeriver where
  source : KeySource
  info : Bytes

def KeyDeriver.fileKey (deriver : KeyDeriver) (fileId : Text) : Except Failure CipherKey := do
  match ← deriver.source.master with
  | none => .error (.keyUnavailable .absent)
  | some master =>
    if master.length ≠ 32 then .error (.keyUnavailable .wrongSize)
    else deriveKey master fileId deriver.info

end ShardVault
