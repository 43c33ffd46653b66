import ShardVault.Log.Conversion
import ShardVault.Log.Place

namespace ShardVault

/-- The values for the places of a template, in order or under keys. -/
inductive Arguments
  | ordered (values : List Json)
  | named (values : Entries Json)

namespace Template

/-- The values for the places to come: the values under keys, if there are keys, and the values for
places without a key. -/
structure Supply where
  named : Option (Entries Json)
  next : List Json

/-- The values of arguments. Under keys, all of them together serve one place without a key. -/
def Supply.of : Arguments → Supply
  | .ordered values => ⟨none, values⟩
  | .named values => ⟨some values, [.object values]⟩

def Supply.select (s : Supply) (key : Key) : Except Fault Supply :=
  match key, s.named with
  | .next, _ => .ok s
  | _, none => .error .withoutKeys
  | .unclosed, some _ => .error .incompleteKey
  | .closed key, some values =>
    match values.get? key with
    | none => .error (.noSuchKey key)
    | some value => .ok { s with next := [value] }

def Supply.take (s : Supply) : Except Fault (Json × Supply) :=
  match s.next with
  | [] => .error .tooFew
  | value :: next => .ok (value, { s with next })

structure Measure.Limit where
  most : Nat
  said : Fault
  found : Fault

def Measure.width : Measure.Limit := ⟨widthLimit, .tooWide, .beyond .widths⟩

def Measure.precision : Measure.Limit := ⟨precisionLimit, .tooPrecise, .beyond .precisions⟩

def Measure.resolve (limit : Measure.Limit) (s : Supply) :
    Measure → Except Fault (Option Int × Supply)
  | .free => .ok (none, s)
  | .number n => if n ≤ limit.most then .ok (some n, s) else .error limit.said
  | .asked => do
    let (value, s) ← s.take
    let n ← integerOf .measure value
    if -(limit.most : Int) - 1 ≤ n ∧ n ≤ limit.most then .ok (some n, s) else .error limit.found

/-- What a place writes of the next value in a form, and the supply after it. -/
def Place.serve (p : Place) (position : Nat) (form : Form) (s : Supply) :
    Except Fault (Text × Supply) :=
  match p.letter with
  | none => .error .incomplete
  | some letter => do
    let (value, s) ← s.take
    let t ← write form letter position value
    .ok (t, s)

def Place.fill (p : Place) (position : Nat) (s : Supply) : Except Fault (Text × Supply) := do
  let s ← s.select p.key
  let (width, s) ← p.width.resolve Measure.width s
  let (precision, s) ← p.precision.resolve Measure.precision s
  p.serve position (Form.of p.flags width precision) s

/-- What is written for pieces. Every value must have a place, unless values have keys. -/
def fillPieces (s : Supply) : List Piece → Except Fault Text
  | [] => if s.named.isNone && !s.next.isEmpty then .error .tooMany else .ok []
  | .text t :: rest => (fillPieces s rest).map (t ++ ·)
  | .place p position :: rest => do
    let (t, s) ← p.fill position s
    (fillPieces s rest).map (t ++ ·)

def fill (t : Text) (arguments : Arguments) : Except Fault Text :=
  fillPieces (Supply.of arguments) (pieces t)

end Template

end ShardVault
