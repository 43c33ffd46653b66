import ShardVault.Proofs.Json.Reading
import ShardVault.Proofs.Json.RoundTrip
import ShardVault.Proofs.Result

namespace ShardVault.Json

variable {α : Type} {depth : Nat} {s t : Text} {fault : Fault} {step : Step α}

def opens (c : CodePoint) : Bool :=
  c == CodePoint.ofChar '[' || c == CodePoint.ofChar '\x7b'

/-- What a text shows of the fault that is found in it where lists and objects may nest to some
depth. -/
inductive Shows (depth : Nat) (t : Text) : Fault → Prop
  | malformed : Shows depth t .malformed
  | tooDeep (deep : depth < t.countP opens) : Shows depth t .tooDeep
  | tooManyDigits {run : Text} (part : run <:+: t) (digits : ∀ c ∈ run, c.isAsciiDigit = true)
      (many : Numeral.digitLimit < run.length) : Shows depth t (.tooManyDigits run.length)

/-- What may be made of a text: the reader goes on with the end of it, or fails for a fault that it
shows. -/
inductive Read (depth : Nat) (t : Text) : Step α → Prop
  | ok (a : α) {rest : Text} (h : rest <:+ t) : Read depth t (.ok (a, rest))
  | error {fault : Fault} (h : Shows depth t fault) : Read depth t (.error fault)

theorem Shows.of_suffix (h : Shows depth s fault) (hs : s <:+ t) : Shows depth t fault := by
  cases h with
  | malformed => exact .malformed
  | tooDeep deep => exact .tooDeep (Nat.lt_of_lt_of_le deep (hs.sublist.countP_le))
  | tooManyDigits part digits many => exact .tooManyDigits (part.trans hs.isInfix) digits many

theorem Shows.inside {c : CodePoint} (hc : opens c = true) (h : Shows depth t fault) :
    Shows (depth + 1) (c :: t) fault := by
  cases h with
  | malformed => exact .malformed
  | tooDeep deep =>
    refine .tooDeep ?_
    rw [List.countP_cons_of_pos hc]
    exact Nat.succ_lt_succ deep
  | tooManyDigits part digits many =>
    exact .tooManyDigits (part.trans (List.suffix_cons c t).isInfix) digits many

namespace Read

theorem malformed : Read depth t (.error .malformed : Step α) := .error .malformed

theorem suffix {a : α} {rest : Text} (h : Read depth t (.ok (a, rest))) : rest <:+ t := by
  cases h with
  | ok _ h => exact h

theorem shows (h : Read depth t (.error fault : Step α)) : Shows depth t fault := by
  cases h with
  | error h => exact h

theorem of_suffix (h : Read depth s step) (hs : s <:+ t) : Read depth t step := by
  cases h with
  | ok a h => exact .ok a (h.trans hs)
  | error h => exact .error (h.of_suffix hs)

theorem inside {c : CodePoint} (hc : opens c = true) (h : Read depth s step) (hs : s <:+ t) :
    Read (depth + 1) (c :: t) step := by
  cases h with
  | ok a h => exact .ok a ((h.trans hs).trans (List.suffix_cons c t))
  | error h => exact .error ((h.of_suffix hs).inside hc)

end Read

theorem suffix_of_skipSpace {c : CodePoint} {rest : Text} (h : skipSpace t = c :: rest) : rest <:+ t :=
  (List.suffix_cons c rest).trans (h ▸ skipSpace_suffix t)

theorem readString_read (done : Text) (fuel : Nat) (t : Text) :
    Read depth t (readString done fuel t) := by
  induction fuel generalizing done t with
  | zero => exact .malformed
  | succ fuel ih =>
    cases t with
    | nil => exact .malformed
    | cons c t =>
      have tail := List.suffix_cons c t
      rw [readString]
      split
      · exact .ok _ tail
      split
      · split
        · next p rest hescape => exact (ih ..).of_suffix ((escape?_eq_some hescape).1.trans tail)
        · exact .malformed
      split
      · exact .malformed
      · exact (ih ..).of_suffix tail

theorem length_of_whole? {ds : List Nat} {rest : Text} (h : whole? t = some (ds, rest)) (more : 1 < ds.length) :
    ds.length = (t.takeWhile CodePoint.isAsciiDigit).length := by
  rw [whole?] at h
  split at h
  · cases h
  · obtain ⟨rfl, -⟩ := Prod.mk.inj (Option.some.inj h)
    exact absurd more (by decide)
  · obtain ⟨rfl, -⟩ := Prod.mk.inj (Option.some.inj h)
    exact List.length_map ..

theorem readNumber_read (t : Text) : Read depth t (readNumber t) := by
  rcases hread : readNumber t with fault | ⟨value, rest⟩
  swap
  · exact .ok value (readNumber_eq_ok hread).2
  refine .error ?_
  rw [readNumber.eq_def] at hread
  split at hread
  next negative body hsign =>
  split at hread
  · cases hread
    exact .malformed
  next ds afterWhole hwhole =>
  simp only [] at hread
  split at hread
  swap
  · cases hread
  split at hread
  swap
  · cases hread
  next many =>
  obtain rfl := Except.error.inj hread
  have front : body.takeWhile CodePoint.isAsciiDigit <:+: t :=
    (List.takeWhile_prefix _).isInfix.trans (suffix_of_sign hsign).isInfix
  have length := length_of_whole? hwhole (Nat.lt_trans (by decide) many)
  rw [length] at many ⊢
  exact .tooManyDigits front (List.all_eq_true.1 List.all_takeWhile) many

theorem readScalar_read (t : Text) : Read depth t (readScalar t) := by
  rw [readScalar]
  split
  · exact .ok _ (List.drop_suffix _ t)
  · exact readNumber_read t

section

variable {item : Text → Step Json}

theorem readItems_read (hi : ∀ t, Read depth t (item t)) (done : List Json) (fuel : Nat) (t : Text) :
    Read depth t (readItems item done fuel t) := by
  induction fuel generalizing done t with
  | zero => exact .malformed
  | succ fuel ih =>
    have first := hi t
    rw [readItems]
    split
    · next fault hitem => exact .error (hitem ▸ first).shows
    next value rest hitem =>
    rw [hitem] at first
    split
    · exact .malformed
    next c tail hskip =>
    have after := (suffix_of_skipSpace hskip).trans first.suffix
    split
    · exact .ok _ after
    split
    · exact (ih ..).of_suffix ((skipSpace_suffix tail).trans after)
    · exact .malformed

theorem readKey_read (bound : Nat) (t : Text) : Read depth t (readKey bound t) := by
  cases t with
  | nil => exact .malformed
  | cons c t =>
    have string : Read depth t (readString [] bound t) := readString_read ..
    rw [readKey]
    split
    swap
    · exact .malformed
    split
    · next fault hstring => exact .error ((hstring ▸ string).shows.of_suffix (List.suffix_cons c t))
    next key rest hstring =>
    rw [hstring] at string
    split
    · exact .malformed
    next c' tail hskip =>
    have after := (suffix_of_skipSpace hskip).trans (string.suffix.trans (List.suffix_cons c t))
    split
    · exact .ok _ ((skipSpace_suffix tail).trans after)
    · exact .malformed

theorem readFields_read (hi : ∀ t, Read depth t (item t)) (bound : Nat) (done : List (Text × Json))
    (fuel : Nat) (t : Text) : Read depth t (readFields item bound done fuel t) := by
  induction fuel generalizing done t with
  | zero => exact .malformed
  | succ fuel ih =>
    have key : Read depth t (readKey bound t) := readKey_read ..
    rw [readFields]
    split
    · next fault hkey => exact .error (hkey ▸ key).shows
    next name rest hkey =>
    rw [hkey] at key
    have value := (hi rest).of_suffix key.suffix
    split
    · next fault hitem => exact .error (hitem ▸ value).shows
    next found rest' hitem =>
    rw [hitem] at value
    simp only []
    split
    · exact .malformed
    next c tail hskip =>
    have after := (suffix_of_skipSpace hskip).trans value.suffix
    split
    · exact .ok _ after
    split
    · exact (ih ..).of_suffix ((skipSpace_suffix tail).trans after)
    · exact .malformed

end

/-- A bracket or a brace takes one level off the depth that is left, and so off what the rest of the
text has to show. -/
theorem readValue_read_step {bound : Nat}
    (inner : ∀ d, depth = d + 1 → ∀ t, Read d t (readValue bound d t)) (t : Text) :
    Read depth t (readValue bound depth t) := by
  cases t with
  | nil =>
    rw [readValue.eq_def]
    exact .malformed
  | cons c t =>
    have string : Read depth (c :: t) (readString [] bound t) :=
      (readString_read ..).of_suffix (List.suffix_cons c t)
    rw [readValue.eq_def]
    simp only []
    split
    · -- a string
      split
      · next text rest hstring => exact .ok _ (hstring ▸ string).suffix
      · next fault hstring => exact .error (hstring ▸ string).shows
    split
    · -- a list
      next hc =>
      have opening : opens c = true := hc ▸ rfl
      split
      · exact .error (.tooDeep (List.countP_pos_iff.2 ⟨c, List.mem_cons_self, opening⟩))
      next d =>
      split
      · exact .malformed
      next c' rest hskip =>
      have after : (c' :: rest) <:+ t := hskip ▸ skipSpace_suffix t
      split
      · exact .ok _ ((suffix_of_skipSpace hskip).trans (List.suffix_cons c t))
      · exact (readItems_read (inner d rfl) ..).inside opening after
    split
    · -- an object
      next hc =>
      have opening : opens c = true := hc ▸ rfl
      split
      · exact .error (.tooDeep (List.countP_pos_iff.2 ⟨c, List.mem_cons_self, opening⟩))
      next d =>
      split
      · exact .malformed
      next c' rest hskip =>
      have after : (c' :: rest) <:+ t := hskip ▸ skipSpace_suffix t
      split
      · exact .ok _ ((suffix_of_skipSpace hskip).trans (List.suffix_cons c t))
      · exact (readFields_read (inner d rfl) ..).inside opening after
    · exact readScalar_read (c :: t)

theorem readValue_read (bound depth : Nat) (t : Text) : Read depth t (readValue bound depth t) := by
  induction depth generalizing t with
  | zero => exact readValue_read_step (fun d hd ↦ absurd hd.symm (Nat.succ_ne_zero d)) t
  | succ depth ih => exact readValue_read_step (fun d hd ↦ Nat.succ.inj hd ▸ ih) t

theorem shows_of_ofText (h : ofText t = .error fault) : Shows nestingLimit t fault := by
  have value := readValue_read (t.length + 1) nestingLimit (skipSpace t)
  rw [ofText] at h
  split at h
  · next found hvalue =>
    obtain rfl := Except.error.inj h
    exact (hvalue ▸ value).shows.of_suffix (skipSpace_suffix t)
  · split at h
    · cases h
    · obtain rfl := Except.error.inj h
      exact .malformed

theorem readValue_brackets (bound depth : Nat) (rest : Text) :
    readValue (bound + 1) depth (List.replicate (depth + 1) (CodePoint.ofChar '[') ++ rest) =
      .error .tooDeep := by
  induction depth with
  | zero =>
    rw [List.replicate_succ, List.cons_append, readValue.eq_def]
    simp only [show CodePoint.ofChar '[' ≠ CodePoint.ofChar '"' by decide, if_false, if_true]
  | succ depth ih =>
    rw [List.replicate_succ, List.cons_append] at ih
    rw [List.replicate_succ, List.replicate_succ, List.cons_append, List.cons_append,
      readValue.eq_def]
    simp only [show CodePoint.ofChar '[' ≠ CodePoint.ofChar '"' by decide, if_false, if_true,
      skipSpace_cons (by decide : isSpace (CodePoint.ofChar '[') = false),
      show CodePoint.ofChar '[' ≠ CodePoint.ofChar ']' by decide, readItems, ih]

theorem ofText_brackets (rest : Text) :
    ofText (List.replicate (nestingLimit + 1) (CodePoint.ofChar '[') ++ rest) =
      .error .tooDeep := by
  have starts : Starts (List.replicate (nestingLimit + 1) (CodePoint.ofChar '[') ++ rest) :=
    ⟨CodePoint.ofChar '[', List.replicate nestingLimit (CodePoint.ofChar '[') ++ rest,
      by rw [List.replicate_succ, List.cons_append], by decide⟩
  rw [ofText, starts.skipSpace_eq, readValue_brackets]

theorem ofText_ofInt {n : Int} (h : Nat.pow 10 Numeral.digitLimit ≤ n.natAbs) :
    ofText (Text.ofInt n) = .error (.tooManyDigits (Text.ofNat n.natAbs).length) := by
  have many : Numeral.digitLimit < (Text.ofNat n.natAbs).length := by
    rw [← Nat.not_le, Text.length_ofNat_le_iff (by decide)]
    exact Nat.not_lt.2 h
  have starts : Starts (Text.ofInt n) := by
    rcases ofInt_cases n with ⟨d, t, he, hd⟩ | ⟨d, t, he, -⟩
    · exact ⟨d, t, he, isOpening_of_digit hd⟩
    · exact ⟨_, _, he, by decide⟩
  have read := readValue_ofInt n [] ((Text.ofInt n).length + 1) nestingLimit
  rw [readNumber_ofInt_eq n ends_nil, if_pos many, List.append_nil] at read
  rw [ofText, starts.skipSpace_eq, read]

def excess? (t : Text) : Option Failure :=
  match ofText t with
  | .error .tooDeep => some .tooDeep
  | .error (.tooManyDigits count) => some (.invalid (.numeral (.tooManyDigits count)))
  | _ => none

/-- A text beyond the limits has too many brackets and braces, or too many digits one after
another. -/
theorem excess?_eq_some {failure : Failure} (h : excess? t = some failure) :
    (failure = .tooDeep ∧ nestingLimit < t.countP opens) ∨
      ∃ run, run <:+: t ∧ (∀ c ∈ run, c.isAsciiDigit = true) ∧ Numeral.digitLimit < run.length ∧
        failure = .invalid (.numeral (.tooManyDigits run.length)) := by
  rw [excess?] at h
  split at h
  · next ht =>
    obtain rfl := Option.some.inj h
    cases shows_of_ofText ht with
    | tooDeep deep => exact .inl ⟨rfl, deep⟩
  · next count ht =>
    obtain rfl := Option.some.inj h
    cases shows_of_ofText ht with
    | @tooManyDigits run part digits many => exact .inr ⟨run, part, digits, many, rfl⟩
  · cases h

theorem family?_of_excess? {failure : Failure} (h : excess? t = some failure) :
    failure.family? = none := by
  rcases excess?_eq_some h with ⟨rfl, -⟩ | ⟨run, -, -, -, rfl⟩
  · rfl
  · rfl

def brackets : Text :=
  List.replicate (nestingLimit + 1) (CodePoint.ofChar '[')

theorem excess?_brackets : excess? brackets = some .tooDeep := by
  have deep := ofText_brackets []
  rw [List.append_nil] at deep
  rw [excess?, brackets, deep]

theorem exists_long :
    ∃ t count, excess? t = some (.invalid (.numeral (.tooManyDigits count))) := by
  have many : Nat.pow 10 Numeral.digitLimit ≤ Int.natAbs (Nat.pow 10 Numeral.digitLimit : Nat) := by
    rw [Int.natAbs_natCast]
  exact ⟨_, _, by rw [excess?, ofText_ofInt many]⟩

theorem ascii_of_mem_brackets : ∀ c ∈ brackets, c.val < 0x80 := by
  intro c hc
  rw [List.eq_of_mem_replicate hc]
  decide

end ShardVault.Json

namespace ShardVault

variable {α β : Type} {own : Failure → Prop} {text : Option Text} {x : Except Failure α}
  {failure : Failure}

/-- A reader fails in its own way, unless the text that it finds is beyond the limits of documents. -/
structure Refuses (own : Failure → Prop) (text : Option Text) (x : Except Failure α) : Prop where
  fails : FailsWith (fun failure ↦ own failure ∨ text.bind Json.excess? = some failure) x
  excess : ∀ failure, text.bind Json.excess? = some failure → x = .error failure

namespace Refuses

theorem within (h : FailsWith own x) (inside : text.bind Json.excess? = none) :
    Refuses own text x :=
  ⟨h.mono fun _ ↦ .inl, fun _ beyond ↦ absurd (inside.symm.trans beyond) nofun⟩

theorem beyond (h : text.bind Json.excess? = some failure) :
    Refuses own text (.error failure : Except Failure α) :=
  ⟨.error (.inr h), fun _ same ↦ congrArg _ (Option.some.inj (h.symm.trans same))⟩

theorem bind (h : Refuses own text x) {f : α → Except Failure β} (hf : ∀ a, FailsWith own (f a)) :
    Refuses own text (x >>= f) where
  fails := h.fails.bind fun a _ ↦ (hf a).mono fun _ ↦ .inl
  excess := by
    intro failure beyond
    rw [h.excess failure beyond, error_bind]

theorem family?_of_bind (h : text.bind Json.excess? = some failure) : failure.family? = none := by
  obtain ⟨t, -, ht⟩ := Option.bind_eq_some_iff.1 h
  exact Json.family?_of_excess? ht

section

variable (family : ∀ failure, own failure → failure.family? ≠ none)
include family

/-- Where a reader's own failures are of a family, its others are those beyond the limits. -/
theorem error_iff (h : Refuses own text x) :
    x = .error failure ∧ ¬ own failure ↔ text.bind Json.excess? = some failure := by
  constructor
  · rintro ⟨hx, other⟩
    exact (h.fails.of_eq failure hx).resolve_left other
  · intro beyond
    exact ⟨h.excess failure beyond, fun mine ↦ family failure mine (family?_of_bind beyond)⟩

theorem foreign_iff (h : Refuses own text x) :
    x = .error failure ∧ failure.family? = none ↔ text.bind Json.excess? = some failure := by
  constructor
  · rintro ⟨hx, foreign⟩
    exact (h.fails.of_eq failure hx).resolve_left fun mine ↦ family failure mine foreign
  · intro beyond
    exact ⟨h.excess failure beyond, family?_of_bind beyond⟩

end

end Refuses

end ShardVault
