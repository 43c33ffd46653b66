import ShardVault.Time.DateTime

namespace ShardVault

/-- A clock: what its readings give, counted from zero, and how often it was read. -/
structure Clock where
  reading : Nat → Except Failure DateTime
  reads : Nat

def Clock.ticking (start : DateTime) (step : Int) : Clock :=
  ⟨fun n => start.plus (n * step), 0⟩

def Clock.read (c : Clock) : Except Failure (DateTime × Clock) :=
  (c.reading c.reads).map fun time => (time, { c with reads := c.reads + 1 })

end ShardVault
