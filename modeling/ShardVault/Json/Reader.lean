import ShardVault.Json.Basic
import ShardVault.Text.Numeral

namespace ShardVault.Json

inductive Fault
  | malformed
  | tooDeep
  | tooManyDigits (count : Nat)
  deriving DecidableEq, Repr

abbrev Step (α : Type) := Except Fault (α × Text)

def nestingLimit : Nat := 990

def isSpace (c : CodePoint) : Bool :=
  c.val == 32 || c.val == 9 || c.val == 10 || c.val == 13

def skipSpace (t : Text) : Text :=
  t.dropWhile isSpace

def unit? : Text → Option (Nat × Text)
  | a :: b :: c :: d :: rest => do
    let a ← a.hexValue?
    let b ← b.hexValue?
    let c ← c.hexValue?
    let d ← d.hexValue?
    some (((a * 16 + b) * 16 + c) * 16 + d, rest)
  | _ => none

def unitEscape? : Text → Option (Nat × Text)
  | u :: rest => if u = CodePoint.ofChar 'u' then unit? rest else none
  | [] => none

def lowHalf? : Text → Option (Nat × Text)
  | c :: rest =>
    if c = CodePoint.ofChar '\\' then
      match unitEscape? rest with
      | some (low, rest) => if low / 0x400 = 0x37 then some (low, rest) else none
      | none => none
    else none
  | [] => none

def shortEscape? (c : CodePoint) : Option CodePoint :=
  [('"', '"'), ('\\', '\\'), ('/', '/'), ('b', '\x08'), ('f', '\x0c'), ('n', '\n'), ('r', '\r'),
    ('t', '\t')].findSome? fun (letter, meant) =>
      if c = CodePoint.ofChar letter then some (CodePoint.ofChar meant) else none

def escape? (t : Text) : Option (CodePoint × Text) :=
  match unitEscape? t with
  | some (high, rest) =>
    if high / 0x400 = 0x36 then
      match lowHalf? rest with
      | some (low, rest) =>
        some (CodePoint.ofNat (0x10000 + (high - 0xD800) * 0x400 + (low - 0xDC00)), rest)
      | none => some (CodePoint.ofNat high, rest)
    else some (CodePoint.ofNat high, rest)
  | none =>
    match t with
    | c :: rest => (shortEscape? c).map fun p => (p, rest)
    | [] => none

/-- The rest of a string after its opening quote; `done` holds it so far, the last code point
first. -/
def readString (done : Text) : (fuel : Nat) → Text → Step Text
  | 0, _ => .error .malformed
  | _, [] => .error .malformed
  | fuel + 1, c :: rest =>
    if c = CodePoint.ofChar '"' then .ok (done.reverse, rest)
    else if c = CodePoint.ofChar '\\' then
      match escape? rest with
      | some (p, rest) => readString (p :: done) fuel rest
      | none => .error .malformed
    else if c.val < 0x20 then .error .malformed
    else readString (c :: done) fuel rest

def digits (t : Text) : List Nat × Text :=
  ((t.takeWhile CodePoint.isAsciiDigit).map fun c => c.val - 48,
    t.dropWhile CodePoint.isAsciiDigit)

def fraction? : Text → Option (List Nat × Text)
  | c :: rest =>
    if c = CodePoint.ofChar '.' then
      let (ds, rest) := digits rest
      if ds.isEmpty then none else some (ds, rest)
    else none
  | [] => none

/-- An exponent: a letter, a sign if there is one, and at least one digit. -/
def exponent? : Text → Option (Int × Text)
  | c :: rest =>
    if c = CodePoint.ofChar 'e' || c = CodePoint.ofChar 'E' then
      let (negative, rest) := Numeral.splitSign rest
      let (ds, rest) := digits rest
      let n : Int := Numeral.ofDigits ds
      if ds.isEmpty then none else some (if negative then -n else n, rest)
    else none
  | [] => none

/-- The digits before the point: a zero alone, or digits that start with another one. -/
def whole? (t : Text) : Option (List Nat × Text) :=
  match digits t with
  | ([], _) => none
  | (0 :: _, _) => some ([0], t.drop 1)
  | found => some found

/-- A number. What looks like the start of a fraction or an exponent and is none stays behind. -/
def readNumber (t : Text) : Step Json :=
  let (negative, body) :=
    match t with
    | c :: rest => if c = CodePoint.ofChar '-' then (true, rest) else (false, t)
    | [] => (false, [])
  match whole? body with
  | none => .error .malformed
  | some (ds, afterWhole) =>
    let (fs, afterFraction) := (fraction? afterWhole).getD ([], afterWhole)
    let (e, afterExponent) := (exponent? afterFraction).getD (0, afterFraction)
    if afterExponent.length = afterWhole.length then
      if Numeral.digitLimit < ds.length then .error (.tooManyDigits ds.length)
      else
        let n : Int := Numeral.ofDigits ds
        .ok (.int (if negative then -n else n), afterWhole)
    else
      .ok (.real (Binary64.ofDecimal negative (Numeral.ofDigits (ds ++ fs)) (e - fs.length)),
        afterExponent)

def words : List (Text × Json) :=
  [("null", .null), ("true", .bool true), ("false", .bool false), ("NaN", .real Binary64.nan),
    ("Infinity", .real (Binary64.infinite false)), ("-Infinity", .real (Binary64.infinite true))]

def readScalar (t : Text) : Step Json :=
  match words.find? fun (word, _) => word.isPrefixOf t with
  | some (word, value) => .ok (value, t.drop word.length)
  | none => readNumber t

/-- The items of a list up to its closing bracket; `done` holds those before, the last one
first. -/
def readItems (item : Text → Step Json) (done : List Json) : (fuel : Nat) → Text → Step Json
  | 0, _ => .error .malformed
  | fuel + 1, t =>
    match item t with
    | .error fault => .error fault
    | .ok (value, rest) =>
      match skipSpace rest with
      | [] => .error .malformed
      | c :: rest =>
        if c = CodePoint.ofChar ']' then .ok (.list (value :: done).reverse, rest)
        else if c = CodePoint.ofChar ',' then
          readItems item (value :: done) fuel (skipSpace rest)
        else .error .malformed

def readKey (fuel : Nat) : Text → Step Text
  | [] => .error .malformed
  | c :: rest =>
    if c = CodePoint.ofChar '"' then
      match readString [] fuel rest with
      | .error fault => .error fault
      | .ok (key, rest) =>
        match skipSpace rest with
        | [] => .error .malformed
        | c :: rest =>
          if c = CodePoint.ofChar ':' then .ok (key, skipSpace rest) else .error .malformed
    else .error .malformed

/-- The fields of an object up to its closing brace, added to those before. -/
def readFields (item : Text → Step Json) (bound : Nat) (done : List (Text × Json)) :
    (fuel : Nat) → Text → Step Json
  | 0, _ => .error .malformed
  | fuel + 1, t =>
    match readKey bound t with
    | .error fault => .error fault
    | .ok (key, rest) =>
      match item rest with
      | .error fault => .error fault
      | .ok (value, rest) =>
        let fields := Entries.put done key value
        match skipSpace rest with
        | [] => .error .malformed
        | c :: rest =>
          if c = CodePoint.ofChar '}' then .ok (.object fields, rest)
          else if c = CodePoint.ofChar ',' then
            readFields item bound fields fuel (skipSpace rest)
          else .error .malformed

/-- A value at the beginning of a text, with at most `depth` lists and objects around one
another. No string, list or object is longer than `bound`. -/
def readValue (bound depth : Nat) (t : Text) : Step Json :=
  match t with
  | [] => .error .malformed
  | c :: rest =>
    if c = CodePoint.ofChar '"' then
      match readString [] bound rest with
      | .ok (s, rest) => .ok (.text s, rest)
      | .error fault => .error fault
    else if c = CodePoint.ofChar '[' then
      match depth with
      | 0 => .error .tooDeep
      | depth + 1 =>
        match skipSpace rest with
        | [] => .error .malformed
        | c :: rest =>
          if c = CodePoint.ofChar ']' then .ok (.list [], rest)
          else readItems (readValue bound depth) [] bound (c :: rest)
    else if c = CodePoint.ofChar '{' then
      match depth with
      | 0 => .error .tooDeep
      | depth + 1 =>
        match skipSpace rest with
        | [] => .error .malformed
        | c :: rest =>
          if c = CodePoint.ofChar '}' then .ok (.object [], rest)
          else readFields (readValue bound depth) bound [] bound (c :: rest)
    else readScalar t

def ofText (t : Text) : Except Fault Json :=
  match readValue (t.length + 1) nestingLimit (skipSpace t) with
  | .error fault => .error fault
  | .ok (value, rest) => if (skipSpace rest).isEmpty then .ok value else .error .malformed

end ShardVault.Json
