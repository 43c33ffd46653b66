import ShardVault.Failure
import ShardVault.Shard.Twister

namespace ShardVault

/-- The first bytes of the stream of a seed, drawn at once. A draw is of less than `2 ^ 31` bits. -/
def Twister.draw (seed count : Nat) : Except Failure Bytes :=
  if 8 * count < 0x80000000 then .ok (stream seed count) else .error (.overflow .draw)

namespace Parity

def addAligned (a b : Bytes) : Bytes :=
  let width := max a.length b.length
  Bytes.xor (Bytes.zeros (width - a.length) ++ a) (Bytes.zeros (width - b.length) ++ b)

/-- The exclusive or of slices filled up to a size. Longer slices meet the others at their ends,
and the result must not need more than the size. -/
def fold (size : Nat) (slices : List Bytes) : Except Failure Bytes :=
  let sum := (slices.map (Bytes.padTo size)).foldl addAligned (Bytes.zeros size)
  let excess := sum.length - size
  if (sum.take excess).all (· == 0) then .ok (sum.drop excess)
  else .error (.overflow .paritySlice)

/-- The parities of slices under some numbers. The streams are drawn before the sum is known to have
room. -/
def ofSlices (size : Nat) (slices : List Bytes) (numbers : List Nat) :
    Except Failure (List Bytes) := do
  let streams ← numbers.mapM (Twister.draw · size)
  let folded ← fold size slices
  .ok (streams.map (Bytes.xor folded))

end Parity

end ShardVault
