import ShardVault.Text.Basic

namespace ShardVault.Template

/-- How wide or how precise a value is at its place: nothing is said, a number says it, or a value
of its own does. -/
inductive Measure
  | free
  | number (n : Nat)
  | asked
  deriving DecidableEq, Repr

/-- Where the value of a place is found: in its turn, or under a key. The parenthesis of a key may
never be closed. -/
inductive Key
  | next
  | closed (key : Text)
  | unclosed
  deriving DecidableEq, Repr

/-- A place for a value. A template that ends inside of it leaves it without its letter. -/
structure Place where
  key : Key
  flags : Text
  width : Measure
  precision : Measure
  letter : Option CodePoint
  deriving DecidableEq, Repr

/-- A part of a template: text as it is, or a place, with the position of its letter. -/
inductive Piece
  | text (t : Text)
  | place (p : Place) (position : Nat)
  deriving DecidableEq, Repr

/-- The key at the beginning of a text, up to the parenthesis that closes it, and the rest. -/
def splitKey (depth : Nat) (key : Text) : Text → Option (Text × Text)
  | [] => none
  | c :: t =>
    if c = CodePoint.ofChar ')' then
      if depth = 0 then some (key.reverse, t) else splitKey (depth - 1) (c :: key) t
    else splitKey (if c = CodePoint.ofChar '(' then depth + 1 else depth) (c :: key) t

def Key.read : Text → Key × Text
  | [] => (.next, [])
  | c :: t =>
    if c = CodePoint.ofChar '(' then
      match splitKey 0 [] t with
      | some (key, rest) => (.closed key, rest)
      | none => (.unclosed, [])
    else (.next, c :: t)

def isFlag (c : CodePoint) : Bool :=
  ("-+ #0" : Text).contains c

def Measure.read (t : Text) : Measure × Text :=
  let digits := t.takeWhile (·.isAsciiDigit)
  if t.head? = some (CodePoint.ofChar '*') then (.asked, t.tail)
  else if digits.isEmpty then (.free, t)
  else (.number (digits.foldl (fun n c => n * 10 + (c.val - 48)) 0), t.drop digits.length)

/-- The precision at the beginning of a text, and the rest. A point alone is a precision of zero. -/
def readPrecision (t : Text) : Measure × Text :=
  if t.head? = some (CodePoint.ofChar '.') then
    match Measure.read t.tail with
    | (.free, rest) => (.number 0, rest)
    | read => read
  else (.free, t)

def skipLength (t : Text) : Text :=
  if t.head?.any (("hlL" : Text).contains ·) then t.tail else t

/-- The place that begins after a percent sign, and the rest of the template. -/
def Place.read (t : Text) : Place × Text :=
  let (key, t) := Key.read t
  let flags := t.takeWhile isFlag
  let (width, t) := Measure.read (t.drop flags.length)
  let (precision, t) := readPrecision t
  let t := skipLength t
  (⟨key, flags, width, precision, t.head?⟩, t.tail)

theorem splitKey_suffix {depth : Nat} {key t k rest : Text}
    (h : splitKey depth key t = some (k, rest)) : rest <:+ t := by
  induction t generalizing depth key with
  | nil => cases h
  | cons c t ih =>
    rw [splitKey] at h
    split at h
    · split at h
      · obtain ⟨-, rfl⟩ := Prod.mk.inj (Option.some.inj h)
        exact List.suffix_cons c t
      · exact (ih h).trans (List.suffix_cons c t)
    · exact (ih h).trans (List.suffix_cons c t)

theorem Key.read_suffix (t : Text) : (Key.read t).2 <:+ t := by
  cases t with
  | nil => exact List.suffix_rfl
  | cons c t =>
    rw [Key.read]
    split
    · split
      next h => exact (splitKey_suffix h).trans (List.suffix_cons c t)
      · exact List.nil_suffix
    · exact List.suffix_rfl

theorem Measure.read_suffix (t : Text) : (Measure.read t).2 <:+ t := by
  simp only [Measure.read]
  split
  · exact List.tail_suffix t
  · split
    · exact List.suffix_rfl
    · exact List.drop_suffix _ t

theorem readPrecision_suffix (t : Text) : (readPrecision t).2 <:+ t := by
  have tail := (Measure.read_suffix t.tail).trans (List.tail_suffix t)
  rw [readPrecision]
  split
  · split
    next h => rwa [h] at tail
    · exact tail
  · exact List.suffix_rfl

theorem skipLength_suffix (t : Text) : skipLength t <:+ t := by
  rw [skipLength]
  split
  · exact List.tail_suffix t
  · exact List.suffix_rfl

theorem Place.read_suffix (t : Text) : (Place.read t).2 <:+ t :=
  (List.tail_suffix _).trans <| (skipLength_suffix _).trans <| (readPrecision_suffix _).trans <|
    (Measure.read_suffix _).trans <| (List.drop_suffix _ _).trans (Key.read_suffix t)

/-- The pieces of the rest of a template that has `size` code points in all. -/
def piecesFrom (size : Nat) : Text → List Piece
  | [] => []
  | c :: t =>
    if c ≠ CodePoint.ofChar '%' then .text [c] :: piecesFrom size t
    else if t.head? = some (CodePoint.ofChar '%') then .text [c] :: piecesFrom size t.tail
    else
      .place (Place.read t).1 (size - (Place.read t).2.length - 1) ::
        piecesFrom size (Place.read t).2
termination_by t => t.length
decreasing_by
  · exact Nat.lt_succ_self t.length
  · exact Nat.lt_succ_of_le (List.tail_suffix t).length_le
  · exact Nat.lt_succ_of_le (Place.read_suffix t).length_le

def pieces (t : Text) : List Piece :=
  piecesFrom t.length t

end ShardVault.Template
