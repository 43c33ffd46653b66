import ShardVault.Text.Property

namespace ShardVault.Text

def quoteMark (holds : Char → Bool) : Char :=
  if holds '\'' && !holds '"' then '"' else '\''

/-- The short escape of a code point inside `mark`s, for those that have one. -/
def shortEscape? (mark : Char) (n : Nat) : Option Text :=
  if n = mark.toNat then some ("\\" ++ [CodePoint.ofChar mark])
  else if n = 92 then some "\\\\"
  else if n = 10 then some "\\n"
  else if n = 13 then some "\\r"
  else if n = 9 then some "\\t"
  else none

def numberEscape (c : CodePoint) : Text :=
  if c.val < 0x100 then "\\x" ++ hexPadded 2 c.val
  else if c.val < 0x10000 then "\\u" ++ hexPadded 4 c.val
  else "\\U" ++ hexPadded 8 c.val

def quotePoint (mark : Char) (c : CodePoint) : Text :=
  match shortEscape? mark c.val with
  | some escape => escape
  | none => if c.isPrintable then [c] else numberEscape c

def inAscii (t : Text) : Text :=
  t.flatMap fun c => if c.val < 128 then [c] else numberEscape c

def quoted (t : Text) : Text :=
  let mark := quoteMark fun c => t.contains (CodePoint.ofChar c)
  [CodePoint.ofChar mark] ++ t.flatMap (quotePoint mark) ++ [CodePoint.ofChar mark]

end ShardVault.Text
