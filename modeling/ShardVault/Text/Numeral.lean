import ShardVault.Text.Trim

namespace ShardVault.Numeral

def digitLimit : Nat := 4300

inductive Fault
  | malformed (text : Text)
  | tooManyDigits (count : Nat)
  deriving DecidableEq

def ofDigits (digits : List Nat) : Nat :=
  digits.foldl (fun n d => n * 10 + d) 0

/-- Digits with single low lines between them; `afterDigit` tells whether one may come next. -/
def digits? (done : List Nat) (afterDigit : Bool) : Text → Option (List Nat)
  | [] => if afterDigit then some done.reverse else none
  | c :: rest =>
    if c = CodePoint.ofChar '_' then
      if afterDigit then digits? done false rest else none
    else match c.digitValue? with
      | some d => digits? (d :: done) true rest
      | none => none

def splitSign : Text → Bool × Text
  | c :: rest =>
    if c = CodePoint.ofChar '-' then (true, rest)
    else if c = CodePoint.ofChar '+' then (false, rest)
    else (false, c :: rest)
  | [] => (false, [])

/-- White space around a number: the ASCII separators 0x1C to 0x1F are not part of it. -/
def isBlank (c : CodePoint) : Bool :=
  c.isAsciiBlank || (128 ≤ c.val && c.isBlank)

def isPart (c : CodePoint) : Bool :=
  c = CodePoint.ofChar '_' || c.digitValue?.isSome

/-- The number that a text spells. The count of digits is checked before what follows them. -/
def read (t : Text) : Except Fault Int :=
  let (negative, body) := splitSign (t.dropWhile isBlank)
  match digits? [] false (body.takeWhile isPart) with
  | none => .error (.malformed t)
  | some digits =>
    if digitLimit < digits.length then .error (.tooManyDigits digits.length)
    else if (body.dropWhile isPart).all isBlank then
      let n : Int := ofDigits digits
      .ok (if negative then -n else n)
    else .error (.malformed t)

end ShardVault.Numeral
