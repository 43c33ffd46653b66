import ShardVault.Bytes.Basic
import ShardVault.Text.Basic

namespace ShardVault.Utf8

def encodePoint (c : CodePoint) : Bytes :=
  let n := c.val
  if n < 0x80 then [UInt8.ofNat n]
  else if n < 0x800 then [UInt8.ofNat (0xC0 + n / 64), UInt8.ofNat (0x80 + n % 64)]
  else if n < 0x10000 then
    [UInt8.ofNat (0xE0 + n / 4096), UInt8.ofNat (0x80 + n / 64 % 64), UInt8.ofNat (0x80 + n % 64)]
  else
    [UInt8.ofNat (0xF0 + n / 262144), UInt8.ofNat (0x80 + n / 4096 % 64),
      UInt8.ofNat (0x80 + n / 64 % 64), UInt8.ofNat (0x80 + n % 64)]

def encodeAll (t : Text) : Bytes :=
  t.flatMap encodePoint

def encode (t : Text) : Option Bytes :=
  if t.isScalar then some (encodeAll t) else none

/-- What decoding does with three bytes that spell a surrogate. -/
inductive Surrogates
  | refused
  | accepted
  deriving DecidableEq

def tail? (b : UInt8) : Option Nat :=
  if b.toNat / 64 = 2 then some (b.toNat % 64) else none

/-- A decoded number, if its form is the shortest one and it is a code point that is wanted. -/
def point? (surrogates : Surrogates) (least n : Nat) : Option CodePoint :=
  if h : n < 0x110000 then
    if n < least then none
    else if surrogates = .refused && CodePoint.isSurrogate ⟨n, h⟩ then none
    else some ⟨n, h⟩
  else none

/-- Decode the rest of a byte string; `done` holds the code points so far, the last one first. -/
def decodeOnto (surrogates : Surrogates) (done : Text) : Bytes → Option Text
  | [] => some done.reverse
  | a :: r1 =>
    if a < 0x80 then decodeOnto surrogates (CodePoint.ofNat a.toNat :: done) r1
    else match r1 with
      | [] => none
      | b :: r2 =>
        if 0xC0 ≤ a && a < 0xE0 then
          match (tail? b).bind fun y => point? surrogates 0x80 ((a.toNat - 0xC0) * 64 + y) with
          | some c => decodeOnto surrogates (c :: done) r2
          | none => none
        else match r2 with
          | [] => none
          | c :: r3 =>
            if 0xE0 ≤ a && a < 0xF0 then
              match (tail? b).bind fun y => (tail? c).bind fun z =>
                  point? surrogates 0x800 ((a.toNat - 0xE0) * 4096 + y * 64 + z) with
              | some c => decodeOnto surrogates (c :: done) r3
              | none => none
            else match r3 with
              | [] => none
              | d :: r4 =>
                if 0xF0 ≤ a then
                  match (tail? b).bind fun y => (tail? c).bind fun z => (tail? d).bind fun w =>
                      point? surrogates 0x10000
                        ((a.toNat - 0xF0) * 262144 + y * 4096 + z * 64 + w) with
                  | some c => decodeOnto surrogates (c :: done) r4
                  | none => none
                else none

def decode (bs : Bytes) : Option Text :=
  decodeOnto .refused [] bs

end ShardVault.Utf8
