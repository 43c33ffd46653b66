import ShardVault.Binary64.Rounded
import ShardVault.Json.Display
import ShardVault.Json.Writer
import ShardVault.Text.Letter

namespace ShardVault.Template

inductive Wanted
  | number (letter : CodePoint)
  | integer (letter : CodePoint)
  | real
  | character
  | measure
  deriving DecidableEq, Repr

def Wanted.message (kind : Text) : Wanted → Text
  | number letter => "%" ++ [letter] ++ " format: a real number is required, not " ++ kind
  | integer letter => "%" ++ [letter] ++ " format: an integer is required, not " ++ kind
  | real => "must be real number, not " ++ kind
  | character => "%c requires int or char"
  | measure => "* wants int"

inductive Range
  | integers
  | reals
  | characters
  | widths
  | precisions
  | digits
  deriving DecidableEq, Repr

def Range.message : Range → Text
  | integers => "cannot convert float infinity to integer"
  | reals => "int too large to convert to float"
  | characters => "%c arg not in range(0x110000)"
  | widths => "Python int too large to convert to C ssize_t"
  | precisions => "Python int too large to convert to C int"
  | digits => "precision too large"

/-- Why a template and values do not go together. -/
inductive Fault
  | tooFew
  | tooMany
  | unfit (wanted : Wanted) (kind : Text)
  | beyond (range : Range)
  | notWhole
  | tooWide
  | tooPrecise
  | tooManyDigits
  | incomplete
  | incompleteKey
  | withoutKeys
  | noSuchKey (key : Text)
  | unsupported (letter : CodePoint) (position : Nat)
  deriving DecidableEq, Repr

def Fault.message : Fault → Text
  | tooFew => "not enough arguments for format string"
  | tooMany => "not all arguments converted during string formatting"
  | unfit wanted kind => wanted.message kind
  | beyond range => range.message
  | notWhole => "cannot convert float NaN to integer"
  | tooWide => "width too big"
  | tooPrecise => "precision too big"
  | tooManyDigits => ValueFault.tooLongToWrite.message
  | incomplete => "incomplete format"
  | incompleteKey => "incomplete format key"
  | withoutKeys => "format requires a mapping"
  | noSuchKey key => key.quoted
  | unsupported letter position =>
    let shown := if 31 ≤ letter.val ∧ letter.val < 127 then letter else CodePoint.ofChar '?'
    "unsupported format character '" ++ [shown] ++ "' (0x" ++
      (Nat.toDigits 16 letter.val).map CodePoint.ofChar ++ ") at index " ++ Text.ofNat position

inductive Conversion
  | shown
  | quoted
  | quotedInAscii
  | character
  | decimal
  | octal
  | hexadecimal
  | scientific
  | fixed
  | general
  deriving DecidableEq, Repr

def Conversion.of? (letter : CodePoint) : Option Conversion :=
  [('s', shown), ('r', quoted), ('a', quotedInAscii), ('c', character), ('d', decimal),
    ('i', decimal), ('u', decimal), ('o', octal), ('x', hexadecimal), ('X', hexadecimal),
    ('e', scientific), ('E', scientific), ('f', fixed), ('F', fixed), ('g', general),
    ('G', general)].findSome? fun (c, conversion) =>
      if letter = CodePoint.ofChar c then some conversion else none

structure Form where
  left : Bool
  zeros : Bool
  sign : Bool
  space : Bool
  alternate : Bool
  width : Nat
  precision : Option Nat

def widthLimit : Nat := 0x7FFFFFFFFFFFFFFF

def precisionLimit : Nat := 0x7FFFFFFF

def digitPrecisionLimit : Nat := precisionLimit - 3

/-- The form that flags, a width and a precision stand for. A negative width is one on the left,
except for the least one, whose magnitude is out of range; a negative precision is zero. -/
def Form.of (flags : Text) (width precision : Option Int) : Form where
  left := flags.contains '-' || width.any (· < 0)
  zeros := flags.contains '0'
  sign := flags.contains '+'
  space := flags.contains ' '
  alternate := flags.contains '#'
  width := width.elim 0 fun n => if n.natAbs ≤ widthLimit then n.natAbs else 0
  precision := precision.map Int.toNat

def Form.padded (f : Form) (t : Text) : Text :=
  let blanks := List.replicate (f.width - t.length) (CodePoint.ofChar ' ')
  if f.left then t ++ blanks else blanks ++ t

def Form.ofText (f : Form) (t : Text) : Text :=
  f.padded (f.precision.elim t t.take)

/-- The digits of a number after its sign and what leads them. Zeros fill up between. -/
def Form.ofDigits (f : Form) (negative : Bool) (lead digits : Text) : Text :=
  let sign : Text := if negative then "-" else if f.sign then "+" else if f.space then " " else []
  let front := sign ++ lead
  let zeros := if f.zeros && !f.left then f.width - (front.length + digits.length) else 0
  f.padded (front ++ List.replicate zeros (CodePoint.ofChar '0') ++ digits)

def Form.ofInt (f : Form) (n : Int) (lead digits : Text) : Except Fault Text :=
  let least := f.precision.getD 0
  if digitPrecisionLimit < least then .error (.beyond .digits)
  else
    let zeros := List.replicate (least - digits.length) (CodePoint.ofChar '0')
    .ok (f.ofDigits (n < 0) (if f.alternate then lead else []) (zeros ++ digits))

/-- A number with a point. Six digits are its precision if nothing is said. -/
def Form.ofReal (f : Form) (shown : Bool → Nat → Binary64 → Text) (x : Binary64) : Text :=
  if x.isNaN then f.ofDigits false [] "nan"
  else if !x.isFinite then f.ofDigits x.isNegative [] "inf"
  else f.ofDigits x.isNegative [] (shown f.alternate (f.precision.getD 6) x)

def kindOf : Json → Text
  | .null => "NoneType"
  | .bool _ => "bool"
  | .int _ => "int"
  | .real _ => "float"
  | .text _ => "str"
  | .list _ => "list"
  | .object _ => "dict"

inductive Number
  | whole (n : Int)
  | real (x : Binary64)

def number? : Json → Option Number
  | .int n => some (.whole n)
  | .bool b => some (.whole (if b then 1 else 0))
  | .real x => some (.real x)
  | _ => none

def Number.truncated : Number → Except Fault Int
  | .whole n => .ok n
  | .real x =>
    let n : Int := x.ratio.1 / x.ratio.2
    if x.isNaN then .error .notWhole
    else if !x.isFinite then .error (.beyond .integers)
    else .ok (if x.isNegative then -n else n)

def Number.toReal : Number → Except Fault Binary64
  | .whole n => (Binary64.ofRatio? (n < 0) n.natAbs 1).elim (.error (.beyond .reals)) .ok
  | .real x => .ok x

def truncated (letter : CodePoint) (value : Json) : Except Fault Int :=
  match number? value with
  | some number => number.truncated
  | none => .error (.unfit (.number letter) (kindOf value))

def integerOf (wanted : Wanted) (value : Json) : Except Fault Int :=
  match number? value with
  | some (.whole n) => .ok n
  | _ => .error (.unfit wanted (kindOf value))

def realOf (value : Json) : Except Fault Binary64 :=
  match number? value with
  | some number => number.toReal
  | none => .error (.unfit .real (kindOf value))

def characterOf : Json → Except Fault CodePoint
  | .text [c] => .ok c
  | value => do
    let n ← integerOf .character value
    if 0 ≤ n ∧ n < 0x110000 then .ok (CodePoint.ofNat n.toNat) else .error (.beyond .characters)

def written (value : Json) (t : Text) : Except Fault Text :=
  if value.isWritable then .ok t else .error .tooManyDigits

def digitsTo (base n : Nat) : Text :=
  (Nat.toDigits base n).map CodePoint.ofChar

def Conversion.apply (form : Form) (letter : CodePoint) (value : Json) :
    Conversion → Except Fault Text
  | shown => (written value value.displayAlone).map form.ofText
  | quoted => (written value value.display).map form.ofText
  | quotedInAscii => (written value value.display.inAscii).map form.ofText
  | character => (characterOf value).map fun c => form.padded [c]
  | decimal => do
    let n ← truncated letter value
    let t ← form.ofInt n [] (Text.ofNat n.natAbs)
    written (.int n) t
  | octal => do
    let n ← integerOf (.integer letter) value
    form.ofInt n "0o" (digitsTo 8 n.natAbs)
  | hexadecimal => do
    let n ← integerOf (.integer letter) value
    form.ofInt n "0x" (digitsTo 16 n.natAbs)
  | scientific => (realOf value).map (form.ofReal Binary64.scientific)
  | fixed => (realOf value).map (form.ofReal Binary64.fixed)
  | general => (realOf value).map (form.ofReal Binary64.general)

/-- A value in the form of a letter at a position. A capital letter stands for capital letters. -/
def write (form : Form) (letter : CodePoint) (position : Nat) (value : Json) : Except Fault Text :=
  match Conversion.of? letter with
  | none => .error (.unsupported letter position)
  | some conversion =>
    (conversion.apply form letter value).map fun t =>
      if letter.within 'A' 'Z' then t.upper else t

end ShardVault.Template
