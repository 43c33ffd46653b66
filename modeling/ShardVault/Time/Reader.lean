import ShardVault.Text.Utf8
import ShardVault.Time.DateTime

namespace ShardVault.DateTime.Reader

def digit? (b : UInt8) : Option Nat :=
  if 48 ≤ b && b ≤ 57 then some (b.toNat - 48) else none

def number? (count : Nat) (bs : Bytes) : Option (Nat × Bytes) :=
  if bs.length < count then none
  else ((bs.take count).mapM digit?).map fun ds => (Numeral.ofDigits ds, bs.drop count)

def next (bs : Bytes) : UInt8 :=
  bs.headD 0

/-- Hours, minutes and seconds as far as given, a fraction in microseconds, and whether something
is left over. -/
structure Parts where
  values : List Nat
  micro : Nat
  leftOver : Bool

/-- A fraction that ends `room` bytes from here: up to six digits count and more are passed
over. -/
def fraction? (values : List Nat) (room : Int) (bs : Bytes) : Option Parts := do
  let count := min 6 room.toNat
  let (n, rest) ← number? count bs
  some ⟨values, n * Nat.pow 10 (6 - count), next (rest.dropWhile fun b => (digit? b).isSome) != 0⟩

/-- At most `left` more parts of two digits each, then a fraction, up to `room` bytes from here.
Whether colons stand between the parts is settled after the first one. -/
def parts? : (left : Nat) → (colons : Option Bool) → (values : List Nat) → (room : Int) →
    Bytes → Option Parts
  | 0, _, values, room, bs => fraction? values room bs
  | left + 1, colons, values, room, bs => do
    let (n, bs) ← number? 2 bs
    let values := values ++ [n]
    let mark := next bs
    let colons := colons.getD (mark == 58)
    let room := room - 3
    if room ≤ 0 then some ⟨values, 0, mark != 0⟩
    else if colons && mark == 58 then parts? left (some colons) values room (bs.drop 1)
    else if mark == 46 || mark == 44 then fraction? values room (bs.drop 1)
    else if colons then none
    else parts? left (some colons) values (room + 1) bs

def Parts.seconds (p : Parts) : Nat :=
  (p.values.getD 0 0 * 60 + p.values.getD 1 0) * 60 + p.values.getD 2 0

/-- The distance from universal time after its sign. None of its parts is checked for its range,
and one of no whole second is universal time. -/
def offset? (negative : Bool) (bs : Bytes) : Option Offset := do
  let p ← parts? 3 none [] bs.length bs
  if p.leftOver then none
  else if p.seconds = 0 then some Offset.utc
  else
    let micros : Int := p.seconds * 1000000 + p.micro
    Offset.of? (if negative then -micros else micros)

def startsOffset (b : UInt8) : Bool :=
  b == 43 || b == 45 || b == 90

def time? (bs : Bytes) : Option (TimeOfDay × Option Offset) := do
  let size := (bs.takeWhile fun b => !startsOffset b).length
  let p ← parts? 3 none [] (if bs.isEmpty then 1 else size) bs
  let time ← TimeOfDay.of? (p.values.getD 0 0) (p.values.getD 1 0) (p.values.getD 2 0) p.micro
  match bs.drop size with
  | [] => if p.leftOver then none else some (time, none)
  | mark :: rest =>
    if mark == 90 then if next rest == 0 then some (time, some Offset.utc) else none
    else (offset? (mark == 45) rest).map fun offset => (time, some offset)

/-- The date up to the byte at `stop`, which must follow a calendar date at once. -/
def date? (stop : Nat) (bs : Bytes) : Option Date := do
  let (year, rest) ← number? 4 bs
  let dashes := next rest == 45
  let rest := if dashes then rest.drop 1 else rest
  if next rest == 87 then
    let (week, rest) ← number? 2 (rest.drop 1)
    if bs.length - rest.length < stop then
      if dashes && next rest != 45 then none
      else
        let (day, _) ← number? 1 (if dashes then rest.drop 1 else rest)
        Date.ofWeek? year week day
    else Date.ofWeek? year week 1
  else
    let (month, rest) ← number? 2 rest
    if dashes && next rest != 45 then none
    else
      let (day, rest) ← number? 2 (if dashes then rest.drop 1 else rest)
      if bs.length - rest.length = stop then Date.of? year month day else none

/-- Where the date ends. A week date may have a weekday or not; in doubt, two digits after a dash
are the hour, and the digits after a week without dashes are pairs of the time, with a weekday in
front if one is left over. -/
def stop? (bs : Bytes) : Option Nat :=
  let size := bs.length
  let byte (i : Nat) : UInt8 := bs.getD i 0
  if size = 7 then some 7
  else if byte 4 == 45 then
    if byte 5 == 87 then
      if 8 < size && byte 8 == 45 then
        if size = 9 then none
        else if 10 < size && (digit? (byte 10)).isSome then some 8
        else some 10
      else some 8
    else some 10
  else if byte 4 == 87 then
    let first := 7 + ((bs.drop 7).takeWhile fun b => (digit? b).isSome).length
    if first < 9 then some first else if first % 2 = 0 then some 7 else some 8
  else some 8

def width (b : UInt8) : Nat :=
  if b < 0x80 then 1 else if b < 0xE0 then 2 else if b < 0xF0 then 3 else 4

/-- The same text with a `T` for a surrogate at one of the places where a date may end. -/
def withSeparator (t : Text) : Text :=
  match [7, 8, 10].find? fun i => (t[i]?.map CodePoint.isSurrogate).getD false with
  | some i => t.set i (CodePoint.ofChar 'T')
  | none => t

end Reader

open Reader in
def ofText? (t : Text) : Option DateTime := do
  if t.length < 7 then none
  else
    let bs ← Utf8.encode (withSeparator t)
    let stop ← stop? bs
    let date ← date? stop bs
    if stop < bs.length then
      let (time, offset) ← time? (bs.drop (stop + width (bs.getD stop 0)))
      some ⟨date, time, offset⟩
    else some ⟨date, .midnight, none⟩

end ShardVault.DateTime
