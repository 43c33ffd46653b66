import Mathlib.Data.List.Forall2
import ShardVault.Log.Template
import ShardVault.Proofs.Binary64
import ShardVault.Proofs.Entries
import ShardVault.Proofs.Json.Fields
import ShardVault.Proofs.Result

namespace ShardVault.Template

/-- A whole number, perhaps after its fraction is left out, that may be written in decimal. -/
def Number.IsDecimal : Number → Prop
  | whole n => (Json.int n).isWritable = true
  | real x => x.isFinite = true

/-- A number with a point, or a whole number that has such a number next to it. -/
def Number.IsReal : Number → Prop
  | whole n => ∃ x, Binary64.ofRatio? (n < 0) n.natAbs 1 = some x
  | real _ => True

def Conversion.Takes (precision : Option Int) (value : Json) : Conversion → Prop
  | shown | quoted | quotedInAscii => value.isWritable = true
  | character =>
    (∃ c, value = .text [c]) ∨ ∃ n, number? value = some (.whole n) ∧ 0 ≤ n ∧ n < 0x110000
  | decimal =>
    (∃ number, number? value = some number ∧ number.IsDecimal) ∧
      ∀ n ∈ precision, n ≤ digitPrecisionLimit
  | octal | hexadecimal =>
    (∃ n, number? value = some (.whole n)) ∧ ∀ n ∈ precision, n ≤ digitPrecisionLimit
  | scientific | fixed | general => ∃ number, number? value = some number ∧ number.IsReal

variable {value : Json} {letter : CodePoint} {wanted : Wanted}

theorem exists_written {t : Text} :
    (∃ u, Template.written value t = .ok u) ↔ value.isWritable = true := by
  rw [Template.written]
  split
  next h => exact ⟨fun _ ↦ h, fun _ ↦ ⟨t, rfl⟩⟩
  next h => exact ⟨nofun, fun writable ↦ absurd writable h⟩

theorem integerOf_eq_ok {n : Int} :
    integerOf wanted value = .ok n ↔ number? value = some (.whole n) := by
  rw [integerOf]
  split
  next h => simp [h]
  next h => exact ⟨nofun, fun same ↦ absurd same (h n)⟩

theorem Number.exists_truncated (number : Number) :
    (∃ n, number.truncated = .ok n ∧ (Json.int n).isWritable = true) ↔ number.IsDecimal := by
  cases number with
  | whole n => exact ⟨fun ⟨_, same, h⟩ ↦ Except.ok.inj same ▸ h, fun h ↦ ⟨n, rfl, h⟩⟩
  | real x =>
    rw [truncated, IsDecimal]
    cases finite : x.isFinite with
    | false => cases x.isNaN <;> simp
    | true =>
      have size : (if x.isNegative then -(x.ratio.1 / x.ratio.2 : Int)
          else x.ratio.1 / x.ratio.2).natAbs = x.ratio.1 / x.ratio.2 := by
        rw [← Int.natCast_ediv]
        split
        · rw [Int.natAbs_neg, Int.natAbs_natCast]
        · rw [Int.natAbs_natCast]
      have grows (k : Nat) : 2 ^ k ≤ Nat.pow 10 k := Nat.pow_le_pow_left (by decide) k
      simp only [Binary64.isNaN_of_isFinite finite, Bool.false_eq_true, if_false, Bool.not_true,
        iff_true]
      refine ⟨_, rfl, Json.isWritable_int_of_lt (k := 1024) (by decide) ?_⟩
      rw [size]
      exact Nat.lt_of_lt_of_le (Binary64.integerPart_lt finite) (grows 1024)

theorem exists_truncated :
    (∃ n, truncated letter value = .ok n ∧ (Json.int n).isWritable = true) ↔
      ∃ number, number? value = some number ∧ number.IsDecimal := by
  rw [truncated]
  cases number? value with
  | none => simp
  | some number => simpa using number.exists_truncated

theorem exists_realOf :
    (∃ x, realOf value = .ok x) ↔ ∃ number, number? value = some number ∧ number.IsReal := by
  rw [realOf]
  cases number? value with
  | none => simp
  | some number =>
    cases number with
    | whole n =>
      simp only [Number.toReal, Number.IsReal, Option.some.injEq, exists_eq_left']
      cases Binary64.ofRatio? (n < 0) n.natAbs 1 <;> simp
    | real x => simp [Number.toReal, Number.IsReal]

theorem exists_characterOf :
    (∃ c, characterOf value = .ok c) ↔
      (∃ c, value = .text [c]) ∨ ∃ n, number? value = some (.whole n) ∧ 0 ≤ n ∧ n < 0x110000 := by
  rw [characterOf.eq_def]
  split
  next c => exact ⟨fun _ ↦ .inl ⟨c, rfl⟩, fun _ ↦ ⟨c, rfl⟩⟩
  next several =>
    have character : ¬∃ c, value = .text [c] := fun ⟨c, h⟩ ↦ several c h
    rw [or_iff_right character, exists_bind_eq_ok]
    refine exists_congr fun n ↦ and_congr integerOf_eq_ok ?_
    split
    next h => exact ⟨fun _ ↦ h, fun _ ↦ ⟨_, rfl⟩⟩
    next h => exact ⟨nofun, fun within ↦ absurd within h⟩

theorem exists_ofInt {flags : Text} {width precision : Option Int} {n : Int} {lead digits : Text} :
    (∃ t, (Form.of flags width precision).ofInt n lead digits = .ok t) ↔
      ∀ p ∈ precision, p ≤ digitPrecisionLimit := by
  rw [Form.ofInt, show (Form.of flags width precision).precision = precision.map Int.toNat from rfl]
  cases precision with
  | none => simp
  | some p =>
    have fits : digitPrecisionLimit < p.toNat ↔ ¬p ≤ digitPrecisionLimit := by omega
    by_cases h : p ≤ digitPrecisionLimit
    · simp [fits, h]
    · simp [fits, h]

theorem Conversion.exists_apply {flags : Text} {width precision : Option Int}
    (conversion : Conversion) :
    (∃ t, conversion.apply (Form.of flags width precision) letter value = .ok t) ↔
      conversion.Takes precision value := by
  cases conversion with
  | shown | quoted | quotedInAscii => exact exists_map_eq_ok.trans exists_written
  | character => exact exists_map_eq_ok.trans exists_characterOf
  | decimal =>
    simp only [apply, exists_bind_eq_ok, exists_written, Takes, exists_and_right, exists_ofInt]
    rw [← @exists_truncated value letter]
    constructor
    · rintro ⟨n, hn, fits, writable⟩
      exact ⟨⟨n, hn, writable⟩, fits⟩
    · rintro ⟨⟨n, hn, writable⟩, fits⟩
      exact ⟨n, hn, fits, writable⟩
  | octal | hexadecimal =>
    simp only [apply, exists_bind_eq_ok, exists_ofInt, integerOf_eq_ok, exists_and_right, Takes]
  | scientific | fixed | general => exact exists_map_eq_ok.trans exists_realOf

/-- The number that a measure is, and the values that say so. -/
inductive Measure.Is (most : Nat) : Measure → List Json → Option Int → Prop
  | free : Measure.Is most .free [] none
  | number {n : Nat} (fits : n ≤ most) : Measure.Is most (.number n) [] (some n)
  | asked {value : Json} {n : Int} (whole : number? value = some (.whole n))
      (fits : -(most : Int) - 1 ≤ n ∧ n ≤ most) : Measure.Is most .asked [value] (some n)

/-- The values that a place takes: what its measures ask for, and one that its letter can write. -/
inductive Place.Takes (p : Place) : List Json → Prop
  | intro {forWidth forPrecision : List Json} {width precision : Option Int} {letter : CodePoint}
      {conversion : Conversion} {value : Json} (wide : p.width.Is widthLimit forWidth width)
      (precise : p.precision.Is precisionLimit forPrecision precision)
      (whole : p.letter = some letter) (known : Conversion.of? letter = some conversion)
      (fits : conversion.Takes precision value) : p.Takes (forWidth ++ (forPrecision ++ [value]))

def Supply.prepend (values : List Json) (s : Supply) : Supply :=
  { s with next := values ++ s.next }

variable {s s' : Supply} {p : Place} {position : Nat}

theorem Supply.take_eq_ok : s.take = .ok (value, s') ↔ s = s'.prepend [value] := by
  obtain ⟨named, next⟩ := s
  obtain ⟨named', next'⟩ := s'
  cases next with
  | nil => exact ⟨nofun, nofun⟩
  | cons first next => simp [take, prepend, and_left_comm]

theorem Measure.resolve_eq_ok {limit : Measure.Limit} {m : Measure} {n : Option Int} :
    m.resolve limit s = .ok (n, s') ↔
      ∃ values, s = s'.prepend values ∧ m.Is limit.most values n := by
  cases m with
  | free =>
    constructor
    · rintro ⟨⟩
      exact ⟨[], rfl, .free⟩
    · rintro ⟨_, rfl, ⟨⟩⟩
      rfl
  | number m =>
    rw [resolve]
    split
    next fits =>
      constructor
      · intro h
        obtain ⟨rfl, rfl⟩ := Prod.mk.inj (Except.ok.inj h)
        exact ⟨[], rfl, .number fits⟩
      · rintro ⟨_, rfl, ⟨⟩⟩
        rfl
    next beyond =>
      refine ⟨nofun, ?_⟩
      rintro ⟨_, -, h⟩
      cases h with
      | number fits => exact absurd fits beyond
  | asked =>
    rw [resolve, bind_eq_ok]
    constructor
    · rintro ⟨⟨value, rest⟩, taken, h⟩
      obtain ⟨m, whole, h⟩ := bind_eq_ok.1 h
      split at h
      next fits =>
        obtain ⟨rfl, rfl⟩ := Prod.mk.inj (Except.ok.inj h)
        exact ⟨[value], Supply.take_eq_ok.1 taken, .asked (integerOf_eq_ok.1 whole) fits⟩
      · cases h
    · rintro ⟨_, same, h⟩
      cases h with
      | @asked value m whole fits =>
        refine ⟨(value, s'), Supply.take_eq_ok.2 same, bind_eq_ok.2 ⟨m, ?_, if_pos fits⟩⟩
        exact integerOf_eq_ok.2 whole

theorem exists_write {flags : Text} {width precision : Option Int} :
    (∃ t, write (Form.of flags width precision) letter position value = .ok t) ↔
      ∃ conversion, Conversion.of? letter = some conversion ∧
        conversion.Takes precision value := by
  rw [write]
  cases Conversion.of? letter with
  | none => exact ⟨nofun, nofun⟩
  | some conversion =>
    simp only [Option.some.injEq, exists_eq_left']
    exact exists_map_eq_ok.trans conversion.exists_apply

theorem Place.exists_serve {flags : Text} {width precision : Option Int} :
    (∃ t, p.serve position (Form.of flags width precision) s = .ok (t, s')) ↔
      ∃ value letter conversion, s = s'.prepend [value] ∧ p.letter = some letter ∧
        Conversion.of? letter = some conversion ∧ conversion.Takes precision value := by
  rw [serve]
  constructor
  · rintro ⟨t, h⟩
    split at h
    · cases h
    next letter whole =>
      obtain ⟨⟨value, rest⟩, taken, h⟩ := bind_eq_ok.1 h
      obtain ⟨u, written, h⟩ := bind_eq_ok.1 h
      obtain ⟨-, rfl⟩ := Prod.mk.inj (Except.ok.inj h)
      obtain ⟨conversion, known, fits⟩ := exists_write.1 ⟨u, written⟩
      exact ⟨value, letter, conversion, Supply.take_eq_ok.1 taken, whole, known, fits⟩
  · rintro ⟨value, letter, conversion, rfl, whole, known, fits⟩
    obtain ⟨t, written⟩ := exists_write.2 ⟨conversion, known, fits⟩
    rw [whole]
    exact ⟨t, bind_eq_ok.2 ⟨_, Supply.take_eq_ok.2 rfl, bind_eq_ok.2 ⟨t, written, rfl⟩⟩⟩

theorem Place.exists_fill :
    (∃ t, p.fill position s = .ok (t, s')) ↔
      ∃ share, s.select p.key = .ok (s'.prepend share) ∧ p.Takes share := by
  constructor
  · rintro ⟨t, filled⟩
    obtain ⟨s₁, select, filled₁⟩ := bind_eq_ok.1 filled
    obtain ⟨⟨width, s₂⟩, resolved, filled₂⟩ := bind_eq_ok.1 filled₁
    obtain ⟨forWidth, rfl, wide⟩ := Measure.resolve_eq_ok.1 resolved
    obtain ⟨⟨precision, s₃⟩, resolved, filled₃⟩ := bind_eq_ok.1 filled₂
    obtain ⟨forPrecision, rfl, precise⟩ := Measure.resolve_eq_ok.1 resolved
    obtain ⟨value, letter, conversion, rfl, whole, known, fits⟩ := exists_serve.1 ⟨t, filled₃⟩
    exact ⟨_, by simpa [Supply.prepend] using select, .intro wide precise whole known fits⟩
  · rintro ⟨_, select, @⟨forWidth, forPrecision, width, precision, letter, conversion, value, wide,
      precise, whole, known, fits⟩⟩
    obtain ⟨t, served⟩ := exists_serve.2 ⟨value, letter, conversion, rfl, whole, known, fits⟩
    have select : s.select p.key = .ok
        (((s'.prepend [value]).prepend forPrecision).prepend forWidth) := by
      simpa [Supply.prepend] using select
    exact ⟨t, bind_eq_ok.2 ⟨_, select, bind_eq_ok.2 ⟨(width, _), Measure.resolve_eq_ok.2
      ⟨forWidth, rfl, wide⟩, bind_eq_ok.2 ⟨(precision, _), Measure.resolve_eq_ok.2
      ⟨forPrecision, rfl, precise⟩, served⟩⟩⟩⟩

def placesOf (pieces : List Piece) : List Place :=
  pieces.filterMap fun
    | .text _ => none
    | .place p _ => some p

/-- The value that is found under a key by the place with an index. -/
inductive Finds (values : Entries Json) : Nat → Key → Json → Prop
  | whole : Finds values 0 .next (.object values)
  | under {index : Nat} {key : Text} {value : Json} (found : values.get? key = some value) :
      Finds values index (.closed key) value

/-- Arguments go with places: values in order are shared out among them, or every place finds the
one value it takes. -/
def Suits (places : List Place) : Arguments → Prop
  | .ordered values =>
    ∃ shares, shares.flatten = values ∧
      List.Forall₂ (fun p share ↦ p.key = .next ∧ p.Takes share) places shares
  | .named values =>
    ∀ q ∈ places.zipIdx, ∃ value, Finds values q.2 q.1.key value ∧ q.1.Takes [value]

theorem exists_fillPieces_text {t : Text} {rest : List Piece} :
    (∃ u, fillPieces s (.text t :: rest) = .ok u) ↔ ∃ u, fillPieces s rest = .ok u :=
  exists_map_eq_ok

theorem exists_fillPieces_place {rest : List Piece} :
    (∃ u, fillPieces s (.place p position :: rest) = .ok u) ↔
      ∃ s' share, s.select p.key = .ok (s'.prepend share) ∧ p.Takes share ∧
        ∃ u, fillPieces s' rest = .ok u := by
  constructor
  · rintro ⟨u, filled⟩
    obtain ⟨⟨t, s'⟩, place, others⟩ := bind_eq_ok.1 filled
    obtain ⟨share, select, takes⟩ := Place.exists_fill.1 ⟨t, place⟩
    exact ⟨s', share, select, takes, exists_map_eq_ok.1 ⟨u, others⟩⟩
  · rintro ⟨s', share, select, takes, others⟩
    obtain ⟨t, place⟩ := Place.exists_fill.2 ⟨share, select, takes⟩
    obtain ⟨u, others⟩ := exists_map_eq_ok.2 others
    exact ⟨u, bind_eq_ok.2 ⟨(t, s'), place, others⟩⟩

theorem Supply.select_ordered {values : List Json} {key : Key} :
    Supply.select ⟨none, values⟩ key = .ok s ↔ key = .next ∧ s = ⟨none, values⟩ := by
  cases key with
  | next => simp [select, eq_comm]
  | closed key => simp [select]
  | unclosed => simp [select]

theorem exists_fillPieces_ordered (pieces : List Piece) (values : List Json) :
    (∃ u, fillPieces ⟨none, values⟩ pieces = .ok u) ↔
      Suits (placesOf pieces) (.ordered values) := by
  induction pieces generalizing values with
  | nil =>
    cases values with
    | nil => exact ⟨fun _ ↦ ⟨[], rfl, .nil⟩, fun _ ↦ ⟨[], rfl⟩⟩
    | cons value values =>
      refine ⟨nofun, ?_⟩
      rintro ⟨_, same, ⟨⟩⟩
      cases same
  | cons piece rest ih =>
    cases piece with
    | text t => exact exists_fillPieces_text.trans (ih values)
    | place p position =>
      rw [exists_fillPieces_place]
      constructor
      · rintro ⟨⟨named, next⟩, share, select, takes, others⟩
        obtain ⟨keyless, same⟩ := Supply.select_ordered.1 select
        obtain ⟨rfl, rfl⟩ := Supply.mk.inj same
        obtain ⟨shares, rfl, suited⟩ := (ih next).1 others
        exact ⟨share :: shares, rfl, .cons ⟨keyless, takes⟩ suited⟩
      · rintro ⟨_, rfl, h⟩
        cases h with
        | @cons _ share _ shares first suited =>
          exact ⟨⟨none, shares.flatten⟩, share, Supply.select_ordered.2 ⟨first.1, rfl⟩, first.2,
            (ih _).2 ⟨shares, rfl, suited⟩⟩

theorem Place.Takes.ne_nil {share : List Json} (h : p.Takes share) : share ≠ [] := by
  cases h with
  | intro => simp

def Supply.ready (values : Entries Json) (index : Nat) : Supply :=
  ⟨some values, if index = 0 then [.object values] else []⟩

theorem Supply.ready_succ (values : Entries Json) (index : Nat) :
    Supply.ready values (index + 1) = ⟨some values, []⟩ := rfl

theorem Supply.select_named {values : Entries Json} {index : Nat} {key : Key} :
    (Supply.ready values index).select key = .ok s ↔
      (∃ value, Finds values index key value ∧ s = ⟨some values, [value]⟩) ∨
        key = .next ∧ index ≠ 0 ∧ s = ⟨some values, []⟩ := by
  cases key with
  | next =>
    have found {value : Json} :
        Finds values index .next value ↔ index = 0 ∧ value = .object values := by
      constructor
      · rintro ⟨⟩
        exact ⟨rfl, rfl⟩
      · rintro ⟨rfl, rfl⟩
        exact .whole
    simp only [found]
    by_cases first : index = 0 <;> simp [select, ready, first, eq_comm]
  | unclosed =>
    have found {value : Json} : ¬Finds values index .unclosed value := nofun
    simp [select, ready, found]
  | closed key =>
    have found {value : Json} : Finds values index (.closed key) value ↔
        values.get? key = some value := ⟨fun | .under found => found, .under⟩
    simp only [select, ready, found]
    cases values.get? key <;> simp [eq_comm]

theorem Place.exists_share {values : Entries Json} {index : Nat} :
    (∃ share, (Supply.ready values index).select p.key = .ok (s'.prepend share) ∧ p.Takes share) ↔
      s' = Supply.ready values (index + 1) ∧
        ∃ value, Finds values index p.key value ∧ p.Takes [value] := by
  obtain ⟨named, next⟩ := s'
  rw [Supply.ready_succ]
  constructor
  · rintro ⟨share, select, takes⟩
    obtain ⟨first, share, rfl⟩ := List.exists_cons_of_ne_nil takes.ne_nil
    obtain ⟨value, found, one⟩ | ⟨-, -, empty⟩ := Supply.select_named.1 select
    · obtain ⟨rfl, alone⟩ := Supply.mk.inj one
      obtain ⟨rfl, rest⟩ := List.cons.inj alone
      obtain ⟨rfl, rfl⟩ := List.append_eq_nil_iff.1 rest
      exact ⟨rfl, first, found, takes⟩
    · cases (Supply.mk.inj empty).2
  · rintro ⟨same, value, found, takes⟩
    exact ⟨[value], Supply.select_named.2 (.inl ⟨value, found, by rw [same]; rfl⟩), takes⟩

theorem exists_fillPieces_named (values : Entries Json) (pieces : List Piece) (index : Nat) :
    (∃ u, fillPieces (Supply.ready values index) pieces = .ok u) ↔
      ∀ q ∈ (placesOf pieces).zipIdx index,
        ∃ value, Finds values q.2 q.1.key value ∧ q.1.Takes [value] := by
  induction pieces generalizing index with
  | nil => exact ⟨fun _ _ ↦ nofun, fun _ ↦ ⟨[], rfl⟩⟩
  | cons piece rest ih =>
    cases piece with
    | text t => exact exists_fillPieces_text.trans (ih index)
    | place p position =>
      rw [exists_fillPieces_place, show placesOf (.place p position :: rest) =
        p :: placesOf rest from rfl, List.zipIdx_cons, List.forall_mem_cons, ← ih (index + 1)]
      constructor
      · rintro ⟨s', share, select, takes, others⟩
        obtain ⟨rfl, found⟩ := Place.exists_share.1 ⟨share, select, takes⟩
        exact ⟨found, others⟩
      · rintro ⟨found, others⟩
        obtain ⟨share, select, takes⟩ := Place.exists_share.2 ⟨rfl, found⟩
        exact ⟨_, share, select, takes, others⟩

def places (t : Text) : List Place :=
  placesOf (pieces t)

theorem exists_fill {t : Text} {arguments : Arguments} :
    (∃ u, fill t arguments = .ok u) ↔ Suits (places t) arguments := by
  cases arguments with
  | ordered values => exact exists_fillPieces_ordered (pieces t) values
  | named values => exact exists_fillPieces_named values (pieces t) 0

end ShardVault.Template
