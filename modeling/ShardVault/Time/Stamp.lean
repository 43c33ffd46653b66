import ShardVault.Binary64
import ShardVault.Time.DateTime

namespace ShardVault

/-- A second of any year. The year before the first one is zero. -/
structure Civil where
  year : Int
  month : Nat
  day : Nat
  time : TimeOfDay
  deriving DecidableEq, Repr

namespace Civil

def epochDay : Nat := 719163

/-- The second so many seconds after the first moment of 1970. Years repeat after four hundred. -/
def ofSeconds (n : Int) : Civil :=
  let place := epochDay - 1 + n / 86400
  let (year, month, day) := Date.partsAt (place % 146097).toNat
  ⟨place / 146097 * 400 + year, month, day, TimeOfDay.ofMicros ((n % 86400).toNat * 1000000)⟩

def dateShown (c : Civil) : Text :=
  Text.ofInt c.year ++ "-" ++ Text.padded 2 c.month ++ "-" ++ Text.padded 2 c.day

def isShown (c : Civil) : Bool :=
  Int.bmod c.year 0x100000000 == c.year

end Civil

/-- Seconds since the first moment of 1970, whole or floating. -/
inductive Stamp
  | whole (seconds : Int)
  | real (seconds : Binary64)
  deriving DecidableEq, Repr

namespace Stamp

/-- Why a stamp is no second, or a second no point in time. -/
inductive Fault
  | notNumber
  | seconds
  | years
  | year (found : Int)
  deriving DecidableEq, Repr

/-- The wording of a fault, unless it is left to the system. A year is told in 32 bits. -/
def Fault.message? : Fault → Option Text
  | notNumber => some "Invalid value NaN (not a number)"
  | seconds => some "timestamp out of range for platform time_t"
  | years => none
  | year found =>
    some ("year " ++ Text.ofInt (Int.bmod found 0x100000000) ++ " is out of range")

def wholeSeconds : Stamp → Int
  | whole n => n
  | real x => (if x.isNegative then -(x.ratio.1 : Int) else x.ratio.1) / x.ratio.2

/-- The whole microseconds in the fraction of a quotient, the even one of two. The fraction is
multiplied as a floating-point number is. -/
def fractionMicros (num den : Nat) : Nat :=
  match Binary64.ofRatio? false (num % den * 1000000) den with
  | some product => Binary64.nearest product.ratio.1 product.ratio.2
  | none => 0

def micros : Stamp → Int
  | whole n => n * 1000000
  | real x =>
    let (num, den) := x.ratio
    let n : Int := (num / den * 1000000 : Nat) + (fractionMicros num den : Nat)
    if x.isNegative then -n else n

def isNaN : Stamp → Bool
  | whole _ => false
  | real x => x.isNaN

/-- The second so many seconds after the first moment of 1970, if it has 64 bits and its year has
32. -/
def civilAt (n : Int) : Except Fault Civil :=
  if Int.bmod n 0x10000000000000000 ≠ n then .error .seconds
  else
    let c := Civil.ofSeconds n
    let years := c.year - 1900
    if Int.bmod years 0x100000000 ≠ years then .error .years else .ok c

def civil (s : Stamp) : Except Fault Civil :=
  if s.isNaN then .error .notNumber else civilAt s.wholeSeconds

def dateTime (s : Stamp) : Except Fault DateTime := do
  if s.isNaN then .error .notNumber
  else
    let c ← civilAt (s.micros / 1000000)
    match DateTime.ofLocalMicros? (Civil.epochDay * dayLength + s.micros) (some .utc) with
    | some time => .ok time
    | none => .error (.year c.year)

end Stamp

end ShardVault
