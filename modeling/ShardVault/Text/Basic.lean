namespace ShardVault

abbrev CodePoint := Fin 0x110000

abbrev Text := List CodePoint

namespace CodePoint

def ofChar (c : Char) : CodePoint :=
  ⟨c.val.toNat, by rcases c.valid with h | h <;> simp_all <;> omega⟩

instance : Coe Char CodePoint := ⟨ofChar⟩

def ofNat (n : Nat) : CodePoint :=
  Fin.ofNat 0x110000 n

def within (c : CodePoint) (lo hi : Char) : Bool :=
  lo.val.toNat ≤ c.val && c.val ≤ hi.val.toNat

def isAsciiDigit (c : CodePoint) : Bool :=
  c.within '0' '9'

def isAsciiLetter (c : CodePoint) : Bool :=
  c.within 'a' 'z' || c.within 'A' 'Z'

/-- A code point that stands for half of a pair in UTF-16 and for nothing alone. -/
def isSurrogate (c : CodePoint) : Bool :=
  0xD800 ≤ c.val && c.val ≤ 0xDFFF

def hexValue? (c : CodePoint) : Option Nat :=
  if c.within '0' '9' then some (c.val - 48)
  else if c.within 'a' 'f' then some (c.val - 87)
  else if c.within 'A' 'F' then some (c.val - 55)
  else none

def ofHexDigit (n : Nat) : CodePoint :=
  if n < 10 then ofNat (48 + n) else ofNat (87 + n)

end CodePoint

namespace Text

def ofString (s : String) : Text :=
  s.toList.map CodePoint.ofChar

instance : Coe String Text := ⟨ofString⟩

def ofNat (n : Nat) : Text :=
  (Nat.toDigits 10 n).map CodePoint.ofChar

/-- The decimal digits of an integer, after a minus sign if it is negative. -/
def ofInt (n : Int) : Text :=
  if n < 0 then "-" ++ ofNat n.natAbs else ofNat n.natAbs

def padded (width n : Nat) : Text :=
  let digits := ofNat n
  List.replicate (width - digits.length) (CodePoint.ofChar '0') ++ digits

def hexPadded : (width n : Nat) → Text
  | 0, _ => []
  | width + 1, n => hexPadded width (n / 16) ++ [CodePoint.ofHexDigit (n % 16)]

def join (separator : Text) (parts : List Text) : Text :=
  (parts.intersperse separator).flatten

def splitOn (mark : CodePoint) (t : Text) : List Text :=
  List.splitOn mark t

/-- Does a text not come after another one in the order of their code points? -/
def notAfter : Text → Text → Bool
  | [], _ => true
  | _ :: _, [] => false
  | a :: s, b :: t => a.val < b.val || (a.val == b.val && notAfter s t)

def occursIn (part : Text) : Text → Bool
  | [] => part.isEmpty
  | c :: rest => part.isPrefixOf (c :: rest) || occursIn part rest

def afterLast? (mark : CodePoint) (t : Text) : Option Text :=
  if t.contains mark then some (t.reverse.takeWhile (· != mark)).reverse else none

/-- The leading part of a text up to a position; a negative position counts from the end. -/
def upTo (position : Int) (t : Text) : Text :=
  if position < 0 then t.take (t.length - position.natAbs) else t.take position.natAbs

/-- A text of at most `limit` code points as it is, and of a longer one the leading part followed by
three dots. -/
def shorten (limit : Int) (t : Text) : Text :=
  if (t.length : Int) ≤ limit then t else t.upTo limit ++ "..."

/-- The first twelve code points of an identifier that is longer than that. -/
def short (t : Text) : Text :=
  t.shorten 12

def isScalar (t : Text) : Bool :=
  t.all fun c => !c.isSurrogate

def toString? (t : Text) : Option String :=
  if t.isScalar then some (String.ofList (t.map fun c => Char.ofNat c.val)) else none

end Text

end ShardVault
