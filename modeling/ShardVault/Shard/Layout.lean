import ShardVault.Container.Codec
import ShardVault.Event
import ShardVault.Shard.Basic
import ShardVault.Shard.Parity

namespace ShardVault

/-- How many data and parity shards a container has. -/
structure Layout where
  data : Nat
  parity : Nat
  dataPositive : 0 < data
  parityPositive : 0 < parity
  deriving DecidableEq

namespace Layout

def of (data parity : Int) : Except Failure Layout :=
  if h : 0 < data ∧ 0 < parity then .ok ⟨data.toNat, parity.toNat, by omega, by omega⟩
  else .error (.invalid .shardCounts)

def total (l : Layout) : Nat :=
  l.data + l.parity

def slices (size : Nat) : (count : Nat) → Bytes → List Bytes
  | 0, _ => []
  | count + 1, bs => bs.take size :: slices size count (bs.drop size)

def sliceSize (l : Layout) (payload : Bytes) : Nat :=
  (payload.length + l.data - 1) / l.data

def cut (l : Layout) (fileId : Text) (payload : Bytes) : Except Failure (List Shard) := do
  let size := l.sliceSize payload
  let pieces := slices size l.data payload
  let parities ← Parity.ofSlices size pieces (List.range l.parity)
  .ok (pieces.mapIdx (fun i piece => Shard.ofData fileId i false piece) ++
    parities.mapIdx fun i piece => Shard.ofData fileId (l.data + i : Nat) true piece)

def create (l : Layout) (c : Container) : Except Failure (List Shard × Event) := do
  let payload ← c.encode
  let shards ← l.cut c.fileId payload
  .ok (shards, .sharded c.fileId shards.length l.data l.parity (l.sliceSize payload))

inductive Verdict
  /-- Missing, a parity shard, or outside the data slots. -/
  | passedOver
  | foreign (slot : Nat)
  /-- In a data slot, but with a hash that is not its own. -/
  | damaged (slot : Nat)
  | usable (slot : Nat) (shard : Shard)

def judge (l : Layout) (fileId : Option Text) : Option Shard → Verdict
  | none => .passedOver
  | some shard =>
    if shard.isParity ∨ shard.index < 0 ∨ l.data ≤ shard.index then .passedOver
    else
      let slot := shard.index.toNat
      if fileId.any (· != shard.fileId) then .foreign slot
      else if shard.verify then .usable slot shard
      else .damaged slot

def inspect (l : Layout) (fileId : Option Text) : Option Shard → Except Failure Verdict
  | none => .ok .passedOver
  | some shard =>
    if shard.isParity ∨ shard.index < 0 ∨ l.data ≤ shard.index then .ok .passedOver
    else
      let slot := shard.index.toNat
      if fileId.any (· != shard.fileId) then .ok (.foreign slot)
      else shard.check.map fun intact => if intact then .usable slot shard else .damaged slot

def Verdict.event? : Verdict → Option Event
  | foreign slot => some (.foreignShard slot)
  | damaged slot => some (.damagedShard slot)
  | _ => none

def Verdict.usable? : Verdict → Option (Nat × Shard)
  | usable slot shard => some (slot, shard)
  | _ => none

def shardFor? (verdicts : List Verdict) (slot : Nat) : Option Shard :=
  (verdicts.reverse.filterMap Verdict.usable?).lookup slot

def availableSlots (verdicts : List Verdict) : List Nat :=
  let slots := (verdicts.filterMap Verdict.usable?).map (·.1)
  (slots.foldr List.insert []).mergeSort Nat.ble

/-- The payload that usable shards give, if no slot is empty. There are as many slots as data
shards, so the shards of all slots in rising order are the whole payload. -/
def payload (l : Layout) (verdicts : List Verdict) : Except Failure Bytes :=
  let slots := availableSlots verdicts
  if slots.length < l.data then .error (.notEnoughShards slots.length l.data)
  else .ok ((slots.filterMap (shardFor? verdicts)).flatMap (·.data))

/-- The container that shards give, in any order and with others among them. -/
def reconstruct (l : Layout) (shards : List (Option Shard)) (fileId : Option Text) :
    Except Failure Container := do
  let bytes ← l.payload (shards.map (l.judge fileId))
  Container.decode bytes

def withCount (l : Layout) : Option Int → Except Failure Layout
  | none => .ok l
  | some count => if count = l.data then .ok l else Layout.of count l.parity

/-- The container that any shards give to a layout that is asked for some count of data shards. -/
def reconstructFrom (l : Layout) (shards : List (Option Shard)) (count : Option Int)
    (fileId : Option Text) : Except Failure Container := do
  let l ← l.withCount count
  let verdicts ← shards.mapM (l.inspect fileId)
  let bytes ← l.payload verdicts
  Container.decode bytes

def events (l : Layout) (shards : List (Option Shard)) (fileId : Option Text) : List Event :=
  shards.filterMap fun shard => (l.judge fileId shard).event?

end Layout

end ShardVault
