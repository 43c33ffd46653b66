import ShardVault.Text.Property

namespace ShardVault.Redaction

def mark : Text := "[REDACTED]"

abbrev Pattern := Text → Option Text

/-- The small letter that a code point counts as. Beyond ASCII, the long s, the sign for kelvin and
the i with or without a dot count as letters. -/
def folded (c : CodePoint) : CodePoint :=
  if c.within 'A' 'Z' then CodePoint.ofNat (c.val + 32)
  else if c.val = 0x17F then CodePoint.ofChar 's'
  else if c.val = 0x212A then CodePoint.ofChar 'k'
  else if c.val = 0x130 ∨ c.val = 0x131 then CodePoint.ofChar 'i'
  else c

def word : Text → Pattern
  | [], t => some t
  | _ :: _, [] => none
  | p :: w, c :: t => if folded c = p then word w t else none

def oneOf (words : List Text) : Pattern := fun t =>
  words.findSome? fun w => word w t

def skip (inClass : CodePoint → Bool) : Text → Text
  | [] => []
  | c :: t => if inClass c then t else c :: t

def point (inClass : CodePoint → Bool) : Pattern
  | [] => none
  | c :: t => if inClass c then some t else none

def run (least : Nat) (inClass : CodePoint → Bool) : Pattern := fun t =>
  if (t.takeWhile inClass).length < least then none else some (t.dropWhile inClass)

def isQuote (c : CodePoint) : Bool :=
  c.val = 34 || c.val = 39

def isBare (c : CodePoint) : Bool :=
  !c.isBlank && !isQuote c

def isAssignment (c : CodePoint) : Bool :=
  c.val = 61 || c.val = 58

def isJoint (c : CodePoint) : Bool :=
  c.val = 95 || c.val = 45

/-- An assignment of a value to a name. The value may be in quotation marks, and the first blank or
quotation mark ends it. -/
def assignment (name : Pattern) : Pattern := fun t => do
  let rest ← name t
  let rest ← point isAssignment (rest.dropWhile CodePoint.isBlank)
  let rest ← run 1 isBare (skip isQuote (rest.dropWhile CodePoint.isBlank))
  return skip isQuote rest

def keyName : Pattern := fun t => do
  let rest ← oneOf ["master", "file", "secret", "private"] t
  word "key" (skip isJoint rest)

def isBase64 (c : CodePoint) : Bool :=
  c.isAsciiLetter || c.isAsciiDigit || c.val = 43 || c.val = 47

/-- Forty or more characters that may spell a key, and up to two equals signs after them. -/
def base64Run : Pattern := fun t => do
  let rest ← run 40 isBase64 t
  return skip (·.val = 61) (skip (·.val = 61) rest)

def isHex (c : CodePoint) : Bool :=
  c.hexValue?.isSome

/-- Sixty-four or more hexadecimal digits, with or without the sign for such numbers. -/
def hexRun : Pattern := fun t =>
  ((word "0x" t).bind (run 64 isHex)).or (run 64 isHex t)

/-- The rules in the order of their application, each with the name it gives to what it hides. -/
def rules : List (Text × Pattern) := [
  ("key", assignment keyName),
  ("secret", assignment (oneOf ["secret", "passphrase", "password"])),
  ("token", assignment (oneOf ["token", "bearer"])),
  ("base64_secret", base64Run),
  ("hex_secret", hexRun)]

def replaceAll (fits : Pattern) (replacement : Text) : Text → Text
  | [] => []
  | c :: t =>
    match fits (c :: t) with
    | none => c :: replaceAll fits replacement t
    | some rest =>
      if rest.length ≤ t.length then replacement ++ replaceAll fits replacement rest
      else c :: replaceAll fits replacement t
termination_by t => t.length

def literal (w : Text) : Pattern := fun t =>
  if w.isPrefixOf t then some (t.drop w.length) else none

/-- Replace every occurrence of a text by the mark. The empty text occurs around every code
point. -/
def replaceLiteral (w : Text) (t : Text) : Text :=
  if w.isEmpty then mark ++ t.flatMap fun c => c :: mark else replaceAll (literal w) mark t

/-- A text without what looks like a secret, and without further texts that are to be hidden. -/
def sanitize (extra : List Text) (t : Text) : Text :=
  let hidden := rules.foldl
    (fun t (name, fits) => replaceAll fits (name ++ "=" ++ mark) t) t
  extra.foldl (fun t w => replaceLiteral w t) hidden

end ShardVault.Redaction
