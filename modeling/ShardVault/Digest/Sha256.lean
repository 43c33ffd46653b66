import ShardVault.Bytes.Hex

namespace ShardVault.Sha256

/-- The eight words that a hash computation carries along. -/
structure Registers where
  a : UInt32
  b : UInt32
  c : UInt32
  d : UInt32
  e : UInt32
  f : UInt32
  g : UInt32
  h : UInt32

/-- The first words: fractions of the square roots of the first eight primes. -/
def initial : Registers :=
  ⟨0x6A09E667, 0xBB67AE85, 0x3C6EF372, 0xA54FF53A, 0x510E527F, 0x9B05688C, 0x1F83D9AB, 0x5BE0CD19⟩

/-- One word for each of the 64 rounds: fractions of the cube roots of the first 64 primes. -/
def roundConstants : List UInt32 := [
  0x428A2F98, 0x71374491, 0xB5C0FBCF, 0xE9B5DBA5, 0x3956C25B, 0x59F111F1, 0x923F82A4, 0xAB1C5ED5,
  0xD807AA98, 0x12835B01, 0x243185BE, 0x550C7DC3, 0x72BE5D74, 0x80DEB1FE, 0x9BDC06A7, 0xC19BF174,
  0xE49B69C1, 0xEFBE4786, 0x0FC19DC6, 0x240CA1CC, 0x2DE92C6F, 0x4A7484AA, 0x5CB0A9DC, 0x76F988DA,
  0x983E5152, 0xA831C66D, 0xB00327C8, 0xBF597FC7, 0xC6E00BF3, 0xD5A79147, 0x06CA6351, 0x14292967,
  0x27B70A85, 0x2E1B2138, 0x4D2C6DFC, 0x53380D13, 0x650A7354, 0x766A0ABB, 0x81C2C92E, 0x92722C85,
  0xA2BFE8A1, 0xA81A664B, 0xC24B8B70, 0xC76C51A3, 0xD192E819, 0xD6990624, 0xF40E3585, 0x106AA070,
  0x19A4C116, 0x1E376C08, 0x2748774C, 0x34B0BCB5, 0x391C0CB3, 0x4ED8AA4A, 0x5B9CCA4F, 0x682E6FF3,
  0x748F82EE, 0x78A5636F, 0x84C87814, 0x8CC70208, 0x90BEFFFA, 0xA4506CEB, 0xBEF9A3F7, 0xC67178F2]

def rotate (n w : UInt32) : UInt32 :=
  w >>> n ||| w <<< (32 - n)

def round (r : Registers) (k w : UInt32) : Registers :=
  let s1 := rotate 6 r.e ^^^ rotate 11 r.e ^^^ rotate 25 r.e
  let choice := (r.e &&& r.f) ^^^ (~~~r.e &&& r.g)
  let t1 := r.h + s1 + choice + k + w
  let s0 := rotate 2 r.a ^^^ rotate 13 r.a ^^^ rotate 22 r.a
  let majority := (r.a &&& r.b) ^^^ (r.a &&& r.c) ^^^ (r.b &&& r.c)
  ⟨t1 + (s0 + majority), r.a, r.b, r.c, r.d + t1, r.e, r.f, r.g⟩

def nextWord (words : Array UInt32) : UInt32 :=
  let n := words.size
  let w15 := words.getD (n - 15) 0
  let w2 := words.getD (n - 2) 0
  let s0 := rotate 7 w15 ^^^ rotate 18 w15 ^^^ w15 >>> 3
  let s1 := rotate 17 w2 ^^^ rotate 19 w2 ^^^ w2 >>> 10
  words.getD (n - 16) 0 + s0 + words.getD (n - 7) 0 + s1

def extend : (n : Nat) → Array UInt32 → Array UInt32
  | 0, words => words
  | n + 1, words => extend n (words.push (nextWord words))

def words : Bytes → List UInt32
  | a :: b :: c :: d :: rest =>
    (a.toUInt32 <<< 24 ||| b.toUInt32 <<< 16 ||| c.toUInt32 <<< 8 ||| d.toUInt32) :: words rest
  | _ => []

def compress (r : Registers) (block : Bytes) : Registers :=
  let schedule := (extend 48 (words block).toArray).toList
  let s := (roundConstants.zip schedule).foldl (fun s p => round s p.1 p.2) r
  ⟨r.a + s.a, r.b + s.b, r.c + s.c, r.d + s.d, r.e + s.e, r.f + s.f, r.g + s.g, r.h + s.h⟩

/-- A message with a set bit, zeros, and its length in bits, a multiple of 64 bytes in all. -/
def pad (message : Bytes) : Bytes :=
  message ++ [0x80] ++ Bytes.zeros ((119 - message.length % 64) % 64) ++
    Bytes.ofNat 8 (8 * message.length)

def Registers.toBytes (r : Registers) : Bytes :=
  [r.a, r.b, r.c, r.d, r.e, r.f, r.g, r.h].flatMap fun w => Bytes.ofNat 4 w.toNat

def digest (message : Bytes) : Bytes :=
  ((chunks 64 (pad message)).foldl compress initial).toBytes

def hex (message : Bytes) : Text :=
  Hex.encode (digest message)

@[simp] theorem length_digest (message : Bytes) : (digest message).length = 32 := by
  simp [digest, Registers.toBytes]

@[simp] theorem length_hex (message : Bytes) : (hex message).length = 64 := by
  simp [hex]

end ShardVault.Sha256
