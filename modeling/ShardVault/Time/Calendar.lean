import ShardVault.Text.Basic

namespace ShardVault

def isLeapYear (year : Nat) : Bool :=
  year % 4 == 0 && (year % 100 != 0 || year % 400 == 0)

def monthLengths (year : Nat) : List Nat :=
  [31, if isLeapYear year then 29 else 28, 31, 30, 31, 30, 31, 31, 30, 31, 30, 31]

def daysBeforeYear (year : Nat) : Nat :=
  let y := year - 1
  y * 365 + y / 4 - y / 100 + y / 400

def isDay (year month day : Nat) : Bool :=
  1 ≤ year && year ≤ 9999 && 1 ≤ month && month ≤ 12 && 1 ≤ day &&
    day ≤ (monthLengths year).getD (month - 1) 0

structure Date where
  year : Nat
  month : Nat
  day : Nat
  valid : isDay year month day = true
  deriving DecidableEq, Repr

namespace Date

def of? (year month day : Nat) : Option Date :=
  if h : isDay year month day = true then some ⟨year, month, day, h⟩ else none

def number (d : Date) : Nat :=
  daysBeforeYear d.year + ((monthLengths d.year).take (d.month - 1)).foldr (· + ·) 0 + d.day

def monthAt : (month : Nat) → (lengths : List Nat) → (place : Nat) → Nat × Nat
  | month, [], place => (month, place + 1)
  | month, length :: lengths, place =>
    if place < length then (month, place + 1) else monthAt (month + 1) lengths (place - length)

/-- The year, the month and the day at a place counted from the first day on. Years repeat after four
hundred, whose last day ends a leap year, as does the last day of every four within a hundred. -/
def partsAt (n : Nat) : Nat × Nat × Nat :=
  let (n400, n) := (n / 146097, n % 146097)
  let (n100, n) := (min 3 (n / 36524), n - min 3 (n / 36524) * 36524)
  let (n4, n) := (n / 1461, n % 1461)
  let n1 := min 3 (n / 365)
  let year := n400 * 400 + n100 * 100 + n4 * 4 + n1 + 1
  (year, monthAt 1 (monthLengths year) (n - n1 * 365))

def ofNumber? (n : Nat) : Option Date :=
  if n = 0 then none
  else
    let (year, month, day) := partsAt (n - 1)
    of? year month day

/-- The number of the Monday of the week that holds the fourth of January. -/
def firstMonday (year : Nat) : Int :=
  let first : Int := daysBeforeYear year + 1
  let weekday := (first + 6) % 7
  let monday := first - weekday
  if 3 < weekday then monday + 7 else monday

/-- Does a year have this week? There is a week 53 if the year starts on a Thursday, or on a
Wednesday and is a leap year. -/
def hasWeek (year week : Nat) : Bool :=
  let weekday := (daysBeforeYear year + 1 + 6) % 7
  1 ≤ week && (week ≤ 52 || (week == 53 && (weekday == 3 || (weekday == 2 && isLeapYear year))))

def ofWeek? (year week day : Nat) : Option Date :=
  if 1 ≤ year && hasWeek year week && 1 ≤ day && day ≤ 7 then
    ofNumber? (firstMonday year + (week - 1) * 7 + day - 1).toNat
  else none

def shown (d : Date) : Text :=
  Text.padded 4 d.year ++ "-" ++ Text.padded 2 d.month ++ "-" ++ Text.padded 2 d.day

end Date

def dayLength : Nat := 86400000000

structure TimeOfDay where
  hour : Fin 24
  minute : Fin 60
  second : Fin 60
  micro : Fin 1000000
  deriving DecidableEq, Repr

namespace TimeOfDay

def of? (hour minute second micro : Nat) : Option TimeOfDay :=
  if h : hour < 24 ∧ minute < 60 ∧ second < 60 ∧ micro < 1000000 then
    some ⟨⟨hour, h.1⟩, ⟨minute, h.2.1⟩, ⟨second, h.2.2.1⟩, ⟨micro, h.2.2.2⟩⟩
  else none

def micros (t : TimeOfDay) : Nat :=
  ((t.hour * 60 + t.minute) * 60 + t.second) * 1000000 + t.micro

def ofMicros (n : Nat) : TimeOfDay :=
  ⟨Fin.ofNat 24 (n / 3600000000), Fin.ofNat 60 (n / 60000000), Fin.ofNat 60 (n / 1000000),
    Fin.ofNat 1000000 n⟩

def midnight : TimeOfDay := ofMicros 0

def shownToSecond (t : TimeOfDay) : Text :=
  Text.padded 2 t.hour ++ ":" ++ Text.padded 2 t.minute ++ ":" ++ Text.padded 2 t.second

/-- Hour, minute and second, and six places of a fraction if it is not zero. -/
def shown (t : TimeOfDay) : Text :=
  t.shownToSecond ++ (if t.micro.val = 0 then ([] : Text) else "." ++ Text.padded 6 t.micro)

end TimeOfDay

end ShardVault
