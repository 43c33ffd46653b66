import ShardVault.Text.Utf8

namespace ShardVault.Encoding

inductive Order
  | highFirst
  | lowFirst
  deriving DecidableEq, Repr

/-- The size of the units of an encoding, and the order of their bytes. -/
inductive Form
  | units8
  | units16 (order : Order)
  | units32 (order : Order)
  deriving DecidableEq, Repr

def Order.number (order : Order) (bs : Bytes) : Nat :=
  match order with
  | .highFirst => Bytes.toNat bs
  | .lowFirst => Bytes.toNat bs.reverse

def marks : List (Bytes × Form) :=
  [([0x00, 0x00, 0xFE, 0xFF], .units32 .highFirst), ([0xFF, 0xFE, 0x00, 0x00], .units32 .lowFirst),
    ([0xFE, 0xFF], .units16 .highFirst), ([0xFF, 0xFE], .units16 .lowFirst),
    ([0xEF, 0xBB, 0xBF], .units8)]

/-- The encoding that the zero bytes at the beginning of a document without a mark show. -/
def guess : Bytes → Form
  | a :: b :: c :: d :: _ =>
    if a = 0 then if b = 0 then .units32 .highFirst else .units16 .highFirst
    else if b = 0 then if c = 0 && d = 0 then .units32 .lowFirst else .units16 .lowFirst
    else .units8
  | [a, b] =>
    if a = 0 then .units16 .highFirst else if b = 0 then .units16 .lowFirst else .units8
  | _ => .units8

def detect (bs : Bytes) : Form × Bytes :=
  match marks.find? fun (mark, _) => mark.isPrefixOf bs with
  | some (mark, form) => (form, bs.drop mark.length)
  | none => (guess bs, bs)

/-- Units of 16 bits as code points, two halves of a pair joined; `done` is held backwards. -/
def joinPairs (done : Text) : List Nat → Text
  | [] => done.reverse
  | [u] => (CodePoint.ofNat u :: done).reverse
  | u :: v :: rest =>
    if u / 0x400 = 0x36 && v / 0x400 = 0x37 then
      joinPairs (CodePoint.ofNat (0x10000 + (u - 0xD800) * 0x400 + (v - 0xDC00)) :: done) rest
    else joinPairs (CodePoint.ofNat u :: done) (v :: rest)

def Form.decode (form : Form) (bs : Bytes) : Option Text :=
  match form with
  | .units8 => Utf8.decodeOnto .accepted [] bs
  | .units16 order =>
    if bs.length % 2 = 0 then some (joinPairs [] ((chunks 2 bs).map order.number)) else none
  | .units32 order =>
    let points := (chunks 4 bs).map order.number
    if bs.length % 4 = 0 && points.all (· < 0x110000) then some (points.map CodePoint.ofNat)
    else none

def decode (bs : Bytes) : Option Text :=
  let (form, body) := detect bs
  form.decode body

end ShardVault.Encoding
