import ShardVault.Json.Basic
import ShardVault.Text.Encoded

namespace ShardVault.Json

structure Style where
  betweenItems : Text
  afterKey : Text
  asciiOnly : Bool
  sortedKeys : Bool

def compact : Style := ⟨",", ":", true, true⟩

def record : Style := ⟨", ", ": ", false, true⟩

def line : Style := ⟨", ", ": ", true, false⟩

def unitEscape (n : Nat) : Text :=
  "\\u" ++ Text.hexPadded 4 n

/-- A code point inside a string. Above 0xFFFF an escape is a pair of surrogates. -/
def writePoint (asciiOnly : Bool) (c : CodePoint) : Text :=
  let n := c.val
  if n = 34 then "\\\""
  else if n = 92 then "\\\\"
  else if n = 10 then "\\n"
  else if n = 13 then "\\r"
  else if n = 9 then "\\t"
  else if n = 12 then "\\f"
  else if n = 8 then "\\b"
  else if n < 0x20 then unitEscape n
  else if !asciiOnly || n < 0x7F then [c]
  else if n < 0x10000 then unitEscape n
  else unitEscape (0xD800 + (n - 0x10000) / 0x400) ++ unitEscape (0xDC00 + (n - 0x10000) % 0x400)

def writeText (asciiOnly : Bool) (t : Text) : Text :=
  "\"" ++ t.flatMap (writePoint asciiOnly) ++ "\""

/-- A floating-point number, the infinite ones and the one that is none as words. -/
def writeReal (x : Binary64) : Text :=
  if Binary64.infinityBits < x.magnitudeBits then "NaN"
  else if x.magnitudeBits = Binary64.infinityBits then
    if x.isNegative then "-Infinity" else "Infinity"
  else x.shown

def sortFields {α : Type} (fields : List (Text × α)) : List (Text × α) :=
  fields.mergeSort fun p q => p.1.notAfter q.1

def writeField (style : Style) (p : Text × Text) : Text :=
  writeText style.asciiOnly p.1 ++ style.afterKey ++ p.2

mutual

def write (style : Style) : Json → Text
  | null => "null"
  | bool true => "true"
  | bool false => "false"
  | int n => Text.ofInt n
  | real x => writeReal x
  | text t => writeText style.asciiOnly t
  | list items => "[" ++ Text.join style.betweenItems (writeItems style items) ++ "]"
  | object fields =>
    let written := writeFields style fields
    let ordered := if style.sortedKeys then sortFields written else written
    [CodePoint.ofChar '{'] ++ Text.join style.betweenItems (ordered.map (writeField style)) ++
      [CodePoint.ofChar '}']

def writeItems (style : Style) : List Json → List Text
  | [] => []
  | item :: items => write style item :: writeItems style items

def writeFields (style : Style) : List (Text × Json) → List (Text × Text)
  | [] => []
  | (key, value) :: fields => (key, write style value) :: writeFields style fields

end

mutual

def isWritable : Json → Bool
  | int n => n.natAbs < Nat.pow 10 Numeral.digitLimit
  | list items => areWritable items
  | object fields => fieldsWritable fields
  | _ => true

def areWritable : List Json → Bool
  | [] => true
  | item :: items => isWritable item && areWritable items

def fieldsWritable : List (Text × Json) → Bool
  | [] => true
  | (_, value) :: fields => isWritable value && fieldsWritable fields

end

def encode (style : Style) (document : Json) : Except Failure Text :=
  if document.isWritable then .ok (write style document)
  else .error (.invalid .tooLongToWrite)

end ShardVault.Json
