import ShardVault.Failure
import ShardVault.Time.Calendar

namespace ShardVault

/-- A distance from universal time in microseconds, of less than a day. -/
structure Offset where
  micros : Int
  inDay : micros.natAbs < dayLength
  deriving DecidableEq, Repr

namespace Offset

def of? (micros : Int) : Option Offset :=
  if h : micros.natAbs < dayLength then some ⟨micros, h⟩ else none

def utc : Offset := ⟨0, by decide⟩

/-- A sign, hours and minutes; seconds and a fraction if they are not zero. -/
def shown (o : Offset) : Text :=
  let n := o.micros.natAbs
  let seconds := n / 1000000
  let sign : Text := if o.micros < 0 then "-" else "+"
  let part (k : Nat) : Text := Text.padded 2 (seconds / k % 60)
  sign ++ Text.padded 2 (seconds / 3600) ++ ":" ++ part 60 ++
    (if n % 60000000 = 0 then ([] : Text) else ":" ++ part 1) ++
    (if n % 1000000 = 0 then ([] : Text) else "." ++ Text.padded 6 (n % 1000000))

end Offset

structure DateTime where
  date : Date
  time : TimeOfDay
  offset : Option Offset
  deriving DecidableEq, Repr

namespace DateTime

/-- The microseconds from the start of the day before the first one up to what a point shows. -/
def localMicros (t : DateTime) : Int :=
  t.date.number * dayLength + t.time.micros

def instant (t : DateTime) : Int :=
  t.localMicros - (t.offset.map (·.micros)).getD 0

def isAware (t : DateTime) : Bool :=
  t.offset.isSome

def same (a b : DateTime) : Bool :=
  a.isAware == b.isAware && a.instant == b.instant

/-- The point that shows so many microseconds, if it lies in the years 1 to 9999. -/
def ofLocalMicros? (micros : Int) (offset : Option Offset) : Option DateTime :=
  let day := micros / dayLength
  (Date.ofNumber? day.toNat).map fun date =>
    ⟨date, TimeOfDay.ofMicros (micros % dayLength).toNat, offset⟩

/-- The point so many microseconds later, at the same distance from universal time. -/
def plus (t : DateTime) (micros : Int) : Except Failure DateTime :=
  match ofLocalMicros? (t.localMicros + micros) t.offset with
  | some later => .ok later
  | none => .error (.overflow .date)

/-- The day and the time with a `T` between, and the distance if it is known. -/
def shown (t : DateTime) : Text :=
  t.date.shown ++ "T" ++ t.time.shown ++ (t.offset.map Offset.shown).getD []

/-- Items by their points in time, the latest first, those of the same moment in the order given.
Fails if there are points with and without a distance. -/
def newestFirst {α : Type} (when : α → DateTime) (items : List α) : Except Failure (List α) :=
  if items.any (fun i => (when i).isAware) && items.any (fun i => !(when i).isAware) then
    .error .unorderedTimes
  else .ok (items.mergeSort fun a b => decide ((when b).instant ≤ (when a).instant))

end DateTime

end ShardVault
