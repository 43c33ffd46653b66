import ShardVault.Binary64

namespace ShardVault.Binary64

/-- Digits before and after a point. A point that nothing follows may be kept. -/
def pointed (keepPoint : Bool) (whole fraction : Text) : Text :=
  if fraction.isEmpty && !keepPoint then whole else whole ++ "." ++ fraction

def exponentShown (e : Int) : Text :=
  (if e < 0 then "e-" else "e+") ++ Text.padded 2 e.natAbs

def zeros (count : Int) : Text :=
  List.replicate count.toNat (CodePoint.ofChar '0')

def fixed (keepPoint : Bool) (places : Nat) (x : Binary64) : Text :=
  let (num, den) := x.ratio
  let digits := Text.padded (places + 1) (nearest (num * Nat.pow 10 places) den)
  let whole := digits.length - places
  pointed keepPoint (digits.take whole) (digits.drop whole)

/-- The first `count` digits, and the place of the point after so many of them. -/
def leading (count : Nat) (x : Binary64) : Text × Int :=
  if x.magnitudeBits = 0 then (zeros count, 1)
  else
    let (num, den) := x.ratio
    let point := pointOf num den
    let k : Int := count - point
    let d :=
      if k < 0 then nearest num (den * Nat.pow 10 k.natAbs)
      else nearest (num * Nat.pow 10 k.natAbs) den
    let digits := Text.ofNat d
    -- A run of nines may be rounded up to one digit more; the digit that is cut off is a zero then.
    (digits.take count, if count < digits.length then point + 1 else point)

def scientific (keepPoint : Bool) (places : Nat) (x : Binary64) : Text :=
  let (digits, point) := x.leading (places + 1)
  pointed keepPoint (digits.take 1) (digits.drop 1) ++ exponentShown (point - 1)

/-- At most `count` digits, but at least one: positional from 0.0001 up to so many digits before the
point, and with an exponent outside. Zeros at the end of a fraction are kept only with the point. -/
def general (keepPoint : Bool) (count : Nat) (x : Binary64) : Text :=
  let count := max count 1
  let (digits, point) := x.leading count
  let digits :=
    if keepPoint then digits
    else (digits.reverse.dropWhile (· == CodePoint.ofChar '0')).reverse
  if -4 < point && point ≤ count then
    if point ≤ 0 then pointed keepPoint "0" (zeros (-point) ++ digits)
    else
      pointed keepPoint (digits.take point.toNat ++ zeros (point - digits.length))
        (digits.drop point.toNat)
  else pointed keepPoint (digits.take 1) (digits.drop 1) ++ exponentShown (point - 1)

end ShardVault.Binary64
