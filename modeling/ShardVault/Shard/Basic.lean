import ShardVault.Digest.Sha256
import ShardVault.Text.Encoded

namespace ShardVault

def shardId (fileId : Text) (index : Int) : Text :=
  fileId ++ "_shard_" ++ Text.ofInt index

/-- A fragment of a container, or a parity fragment over all of them. -/
structure Shard where
  index : Int
  data : Bytes
  hash : Text
  isParity : Bool
  fileId : Text
  deriving DecidableEq, Repr

namespace Shard

def id (s : Shard) : Text :=
  shardId s.fileId s.index

def ofData (fileId : Text) (index : Int) (isParity : Bool) (data : Bytes) : Shard :=
  ⟨index, data, Sha256.hex data, isParity, fileId⟩

def verify (s : Shard) : Bool :=
  Sha256.hex s.data == s.hash

def check (s : Shard) : Except Failure Bool :=
  Text.sameDigest (Sha256.hex s.data) s.hash

def shown (s : Shard) : Text :=
  "Shard(" ++ s.fileId.short ++ "#" ++ Text.ofInt s.index ++
    (if s.isParity then ", parity, " else ", data, " : Text) ++ Text.ofNat s.data.length ++ " bytes)"

def magic : Bytes :=
  Utf8.encodeAll "LDSH"

def formVersion : Nat := 1

def headSize : Nat := 13

def hashSize : Nat := 64

def asciiBytes (t : Text) : Except Failure Bytes :=
  if t.all (·.val < 128) then .ok (t.map fun c => UInt8.ofNat c.val) else .error .unencodable

def asciiText? (bs : Bytes) : Option Text :=
  if bs.all (· < 128) then some (bs.map fun b => CodePoint.ofNat b.toNat) else none

/-- A shard as a record. Its index must fit four bytes and the length of its file's id two. -/
def encode (s : Shard) : Except Failure Bytes := do
  let idBytes ← s.fileId.encode
  if s.index < 0 ∨ 0x100000000 ≤ s.index ∨ 0x10000 ≤ idBytes.length then .error .unpackable
  else
    let hashBytes ← asciiBytes s.hash
    .ok (magic ++ Bytes.ofNat 2 formVersion ++ [if s.isParity then 1 else 0] ++
      Bytes.ofNat 4 s.index.toNat ++ Bytes.ofNat 2 idBytes.length ++ idBytes ++ hashBytes ++ s.data)

def ofBody (flags : UInt8) (index idSize : Nat) (body : Bytes) : Except ShardFault Shard :=
  let idBytes := body.take idSize
  let hashBytes := (body.drop idSize).take hashSize
  if hashBytes.length < hashSize then .error .truncated
  else
    match Utf8.decode idBytes, asciiText? hashBytes with
    | some fileId, some hash =>
      .ok ⟨index, body.drop (idSize + hashSize), hash, flags == 1, fileId⟩
    | _, _ => .error .notText

def decode (bs : Bytes) : Except ShardFault Shard :=
  if bs.length < headSize then .error .tooShort
  else if bs.take 4 ≠ magic then .error .badMagic
  else
    let version := Bytes.toNat ((bs.drop 4).take 2)
    if version ≠ formVersion then .error (.version version)
    else
      let flags := (bs.drop 6).headD 0
      if 1 < flags then .error (.flags flags.toNat)
      else
        ofBody flags (Bytes.toNat ((bs.drop 7).take 4)) (Bytes.toNat ((bs.drop 11).take 2))
          (bs.drop headSize)

end Shard

end ShardVault
