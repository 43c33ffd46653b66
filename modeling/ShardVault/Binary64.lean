import ShardVault.Text.Basic

namespace ShardVault

/-- A floating-point number by its sign, exponent and fraction bits. -/
structure Binary64 where
  bits : UInt64
  deriving DecidableEq, Repr, Inhabited

namespace Binary64

def signBit : Nat := 0x8000000000000000

def fractions : Nat := 0x10000000000000

def infinityBits : Nat := 2047 * fractions

def ofMagnitude (negative : Bool) (magnitude : Nat) : Binary64 :=
  ⟨UInt64.ofNat (if negative then signBit + magnitude else magnitude)⟩

def infinite (negative : Bool) : Binary64 :=
  ofMagnitude negative infinityBits

def nan : Binary64 :=
  ⟨0x7FF8000000000000⟩

def nearest (num den : Nat) : Nat :=
  let q := num / den
  let r := num % den
  if den < 2 * r || (2 * r == den && q % 2 == 1) then q + 1 else q

/-- The bits of the magnitude nearest to a quotient. The quotient is scaled by a power of two so
that it rounds to 53 bits, or to fewer at the bottom of the range. -/
def magnitude (num den : Nat) : Nat :=
  if num = 0 then 0
  else
    let guess : Int := 52 - (Nat.log2 num : Int) + Nat.log2 den
    let scaled (s : Int) : Nat × Nat :=
      if s < 0 then (num, den <<< s.natAbs) else (num <<< s.natAbs, den)
    let (a, b) := scaled guess
    let shift := min (if a / b < fractions then guess + 1 else guess) 1074
    let (a, b) := scaled shift
    (1074 - shift).toNat * fractions + nearest a b

def ofRatio? (negative : Bool) (num den : Nat) : Option Binary64 :=
  let m := magnitude num den
  if infinityBits ≤ m then none else some (ofMagnitude negative m)

def ofDecimal (negative : Bool) (digits : Nat) (exponent : Int) : Binary64 :=
  if digits = 0 then ofMagnitude negative 0
  else
    let size : Int := (Nat.toDigits 10 digits).length
    if 400 < exponent + size then infinite negative
    else if exponent + size < -400 then ofMagnitude negative 0
    else
      let m :=
        if exponent < 0 then magnitude digits (Nat.pow 10 exponent.natAbs)
        else magnitude (digits * Nat.pow 10 exponent.natAbs) 1
      ofMagnitude negative (min m infinityBits)

def isNegative (x : Binary64) : Bool :=
  signBit ≤ x.bits.toNat

def magnitudeBits (x : Binary64) : Nat :=
  x.bits.toNat % signBit

def isFinite (x : Binary64) : Bool :=
  x.magnitudeBits < infinityBits

def isNaN (x : Binary64) : Bool :=
  infinityBits < x.magnitudeBits

def decoded (x : Binary64) : Nat × Int :=
  let e : Nat := x.magnitudeBits / fractions
  let f : Nat := x.magnitudeBits % fractions
  if e = 0 then (f, -1074) else (f + fractions, (e : Int) - 1075)

def ratio (x : Binary64) : Nat × Nat :=
  let (m, q) := x.decoded
  if q < 0 then (m, 1 <<< q.natAbs) else (m <<< q.natAbs, 1)

/-- A decimal of `count` digits that is read back as a magnitude, if there is one: the nearer of
the two neighbours on the grid of such decimals, and of two equally near the even one. Magnitudes
are counted in quarters of their last binary place. -/
def decimal? (m : Nat) (q : Int) (point : Int) (count : Nat) : Option (Nat × Int) :=
  let k := point - count
  let grid := Nat.pow 10 k.toNat <<< (2 - q).toNat
  let unit := Nat.pow 10 (-k).toNat <<< (q - 2).toNat
  let value := 4 * m * unit
  let low := (if m = fractions && -1074 < q then 4 * m - 1 else 4 * m - 2) * unit
  let high := (4 * m + 2) * unit
  let fits (d : Nat) : Bool :=
    if m % 2 = 0 then low ≤ d * grid && d * grid ≤ high else low < d * grid && d * grid < high
  let below := value / grid
  let best := nearest value grid
  if fits best then some (best, k)
  else if fits below then some (below, k)
  else if fits (below + 1) then some (below + 1, k)
  else none

/-- The least exponent of a power of ten above a positive quotient, near a guess. -/
def pointOf (num den : Nat) : Int :=
  let guess : Int := ((Nat.log2 num : Int) - Nat.log2 den) * 30103 / 100000
  let below (p : Int) : Bool :=
    if p < 0 then num * Nat.pow 10 p.natAbs < den else num < den * Nat.pow 10 p.natAbs
  if below (guess - 1) then guess - 1 else if below guess then guess
  else if below (guess + 1) then guess + 1 else guess + 2

/-- The digits of the shortest decimal that is read back as a positive number, and the place of
the point after the first so many of them. -/
def shortest (x : Binary64) : Text × Int :=
  let (m, q) := x.decoded
  let (num, den) := x.ratio
  let point := pointOf num den
  match (List.range 17).findSome? fun n => decimal? m q point (n + 1) with
  | some (d, k) =>
    let digits := Text.ofNat d
    let kept := (digits.reverse.dropWhile (· == CodePoint.ofChar '0')).reverse
    (kept, k + digits.length)
  | none => ([], 0)

/-- A finite number in decimal: positional from 0.0001 up to 16 digits before the point, and with
an exponent of at least two digits outside. -/
def shown (x : Binary64) : Text :=
  let sign : Text := if x.isNegative then "-" else []
  if x.isNaN then "nan"
  else if !x.isFinite then sign ++ "inf"
  else if x.magnitudeBits = 0 then sign ++ "0.0"
  else
    let (digits, point) := x.shortest
    let size : Int := digits.length
    let zeros (n : Int) : Text := List.replicate n.toNat (CodePoint.ofChar '0')
    if -4 < point && point ≤ 16 then
      if point ≤ 0 then sign ++ "0." ++ zeros (-point) ++ digits
      else if size ≤ point then sign ++ digits ++ zeros (point - size) ++ ".0"
      else sign ++ digits.take point.toNat ++ "." ++ digits.drop point.toNat
    else
      let e := point - 1
      let tail : Text := if size = 1 then [] else "." ++ digits.drop 1
      sign ++ digits.take 1 ++ tail ++ (if e < 0 then "e-" else "e+") ++ Text.padded 2 e.natAbs

end Binary64

end ShardVault
