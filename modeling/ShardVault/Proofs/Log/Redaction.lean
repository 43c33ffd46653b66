import ShardVault.Log.Record
import ShardVault.Proofs.Log.Places

namespace ShardVault

namespace Redaction

variable {fits name : Pattern} {least : Nat} {t rest : Text}

def Consumes (least : Nat) (fits : Pattern) : Prop :=
  ∀ t rest, fits t = some rest → rest.length + least ≤ t.length

theorem Consumes.weaken {less : Nat} (h : Consumes least fits) (hl : less ≤ least) :
    Consumes less fits := fun t rest found ↦ by
  have := h t rest found
  omega

theorem length_dropWhile_le (inClass : CodePoint → Bool) (t : Text) :
    (t.dropWhile inClass).length ≤ t.length :=
  (List.dropWhile_suffix inClass).length_le

theorem length_skip_le (inClass : CodePoint → Bool) (t : Text) :
    (skip inClass t).length ≤ t.length := by
  cases t with
  | nil => simp [skip]
  | cons c t =>
    rw [skip]
    split <;> simp

theorem consumes_word (w : Text) : Consumes w.length (word w) := by
  induction w with
  | nil =>
    intro t rest h
    obtain rfl := Option.some.inj h
    simp
  | cons p w ih =>
    intro t rest h
    cases t with
    | nil => cases h
    | cons c t =>
      rw [word] at h
      split at h
      · have := ih t rest h
        simp only [List.length_cons]
        omega
      · cases h

theorem consumes_oneOf (words : List Text) : Consumes 0 (oneOf words) := by
  intro t rest found
  obtain ⟨w, -, found⟩ := List.exists_of_findSome?_eq_some found
  exact (consumes_word w).weaken (Nat.zero_le _) t rest found

theorem consumes_point (inClass : CodePoint → Bool) : Consumes 1 (point inClass) := by
  intro t rest h
  cases t with
  | nil => cases h
  | cons c t =>
    rw [point] at h
    split at h
    · obtain rfl := Option.some.inj h
      simp
    · cases h

theorem consumes_run (least : Nat) (inClass : CodePoint → Bool) :
    Consumes least (run least inClass) := by
  intro t rest h
  rw [run] at h
  split at h
  · cases h
  · obtain rfl := Option.some.inj h
    have := congrArg List.length (List.takeWhile_append_dropWhile (p := inClass) (l := t))
    rw [List.length_append] at this
    omega

/-- A name, the sign after it and one code point of a value are at least two more than the name. -/
theorem consumes_assignment (h : Consumes least name) : Consumes (least + 2) (assignment name) := by
  intro t rest found
  obtain ⟨afterName, hn, found⟩ := Option.bind_eq_some_iff.1 found
  obtain ⟨afterSign, hs, found⟩ := Option.bind_eq_some_iff.1 found
  obtain ⟨afterValue, hv, found⟩ := Option.bind_eq_some_iff.1 found
  obtain rfl := Option.some.inj found
  have ofName := h t afterName hn
  have ofSign := consumes_point isAssignment _ afterSign hs
  have ofValue := consumes_run 1 isBare _ afterValue hv
  have blanks := length_dropWhile_le CodePoint.isBlank
  have quotes := length_skip_le isQuote
  have before := blanks afterName
  have behind := (quotes (afterSign.dropWhile CodePoint.isBlank)).trans (blanks afterSign)
  have last := quotes afterValue
  omega

theorem consumes_keyName : Consumes 0 keyName := by
  intro t rest found
  obtain ⟨afterKind, hk, found⟩ := Option.bind_eq_some_iff.1 found
  have ofKind := consumes_oneOf _ t afterKind hk
  have ofKey := consumes_word _ _ rest found
  have joint := length_skip_le isJoint afterKind
  omega

theorem consumes_base64Run : Consumes 40 base64Run := by
  intro t rest found
  obtain ⟨afterRun, hr, found⟩ := Option.bind_eq_some_iff.1 found
  obtain rfl := Option.some.inj found
  have ofRun := consumes_run 40 isBase64 t afterRun hr
  have signs := length_skip_le (fun c ↦ c.val = 61)
  have first := signs afterRun
  have second := signs (skip (fun c ↦ c.val = 61) afterRun)
  omega

theorem consumes_hexRun : Consumes 64 hexRun := by
  intro t rest found
  have plain := consumes_run 64 isHex
  rw [hexRun] at found
  cases marked : (word "0x" t).bind (run 64 isHex) with
  | none => exact plain t rest (by rwa [marked] at found)
  | some afterRun =>
    rw [marked] at found
    obtain rfl := Option.some.inj found
    obtain ⟨afterMark, hm, hr⟩ := Option.bind_eq_some_iff.1 marked
    have ofMark := consumes_word _ t afterMark hm
    have ofRun := plain afterMark afterRun hr
    omega

theorem consumes_of_mem_rules : ∀ rule ∈ rules, Consumes 2 rule.2 := by
  simp only [rules, List.forall_mem_cons, List.not_mem_nil, false_imp_iff, implies_true, and_true]
  exact ⟨consumes_assignment consumes_keyName, consumes_assignment (consumes_oneOf _),
    consumes_assignment (consumes_oneOf _), consumes_base64Run.weaken (by decide),
    consumes_hexRun.weaken (by decide)⟩

theorem replaceAll_ne_nil {replacement : Text} (hr : replacement ≠ []) {c : CodePoint} :
    replaceAll fits replacement (c :: t) ≠ [] := by
  rw [replaceAll]
  split
  · simp
  · split <;> simp [hr]

/-- Where two code points or more are replaced by two or more, a single one is left as it is, and
others do not become a single one. -/
theorem length_replaceAll_eq_one {replacement : Text} (hf : Consumes 2 fits)
    (hr : 2 ≤ replacement.length) (t : Text) :
    (replaceAll fits replacement t).length = 1 ↔ t.length = 1 := by
  have filled : replacement ≠ [] := fun h ↦ by simp [h] at hr
  have kept (c : CodePoint) (t : Text) :
      (c :: replaceAll fits replacement t).length = 1 ↔ (c :: t).length = 1 := by
    cases t with
    | nil => simp [replaceAll]
    | cons d t => simp [replaceAll_ne_nil filled]
  cases t with
  | nil => simp [replaceAll]
  | cons c t =>
    rw [replaceAll]
    split
    · exact kept c t
    next rest found =>
      have consumed := hf _ rest found
      split
      · simp only [List.length_append, List.length_cons] at consumed ⊢
        omega
      · exact kept c t

theorem length_sanitize_eq_one (t : Text) : (sanitize [] t).length = 1 ↔ t.length = 1 := by
  have step (rs : List (Text × Pattern)) (h : ∀ rule ∈ rs, Consumes 2 rule.2) (t : Text) :
      (rs.foldl (fun t rule ↦ replaceAll rule.2 (rule.1 ++ "=" ++ mark) t) t).length = 1 ↔
        t.length = 1 := by
    induction rs generalizing t with
    | nil => rfl
    | cons rule rs ih =>
      rw [List.forall_mem_cons] at h
      have marked : 2 ≤ (rule.1 ++ "=" ++ mark).length := by
        rw [List.length_append]
        exact Nat.le_add_left_of_le (by decide)
      exact (ih h.2 _).trans (length_replaceAll_eq_one h.1 marked t)
  exact step rules consumes_of_mem_rules t

end Redaction

namespace Template

/-- Values that no place tells apart, whatever it writes for them. -/
structure Alike (value other : Json) : Prop where
  number : number? other = number? value
  writable : other.isWritable = value.isWritable
  single : (∃ c, other = .text [c]) ↔ ∃ c, value = .text [c]

theorem Conversion.takes_alike {conversion : Conversion} {precision : Option Int}
    {value other : Json} (h : Alike value other) :
    conversion.Takes precision other ↔ conversion.Takes precision value := by
  cases conversion with
  | shown | quoted | quotedInAscii => simp only [Takes, h.writable]
  | character => simp only [Takes, h.number, h.single]
  | decimal | octal | hexadecimal | scientific | fixed | general => simp only [Takes, h.number]

theorem Measure.is_map {most : Nat} {m : Measure} {n : Option Int} {f : Json → Json}
    {values : List Json} (h : ∀ value ∈ values, Alike value (f value)) :
    m.Is most (values.map f) n ↔ m.Is most values n := by
  constructor
  · intro is
    generalize same : values.map f = mapped at is
    cases is with
    | free =>
      obtain rfl := List.map_eq_nil_iff.1 same
      exact .free
    | number fits =>
      obtain rfl := List.map_eq_nil_iff.1 same
      exact .number fits
    | asked whole fits =>
      obtain ⟨value, rfl, rfl⟩ := List.map_eq_singleton_iff.1 same
      exact .asked ((h value List.mem_cons_self).number.symm.trans whole) fits
  · intro is
    cases is with
    | free => exact .free
    | number fits => exact .number fits
    | @asked value n whole fits =>
      exact .asked ((h value List.mem_cons_self).number.trans whole) fits

theorem Place.takes_map {p : Place} {f : Json → Json} {share : List Json}
    (h : ∀ value ∈ share, Alike value (f value)) : p.Takes (share.map f) ↔ p.Takes share := by
  constructor
  · intro takes
    generalize same : share.map f = mapped at takes
    obtain ⟨wide, precise, whole, known, fits⟩ := takes
    obtain ⟨forWidth, others, rfl, rfl, behind⟩ := List.map_eq_append_iff.1 same
    obtain ⟨forPrecision, last, rfl, rfl, alone⟩ := List.map_eq_append_iff.1 behind
    obtain ⟨value, rfl, rfl⟩ := List.map_eq_singleton_iff.1 alone
    simp only [List.forall_mem_append, List.forall_mem_singleton] at h
    exact .intro ((Measure.is_map h.1).1 wide) ((Measure.is_map h.2.1).1 precise) whole known
      ((Conversion.takes_alike h.2.2).1 fits)
  · rintro ⟨wide, precise, whole, known, fits⟩
    simp only [List.forall_mem_append, List.forall_mem_singleton] at h
    rw [List.map_append, List.map_append]
    exact .intro ((Measure.is_map h.1).2 wide) ((Measure.is_map h.2.1).2 precise) whole known
      ((Conversion.takes_alike h.2.2).2 fits)

theorem Place.takes_alike {p : Place} {value other : Json} (h : Alike value other) :
    p.Takes [other] ↔ p.Takes [value] :=
  @Place.takes_map p (fun _ ↦ other) [value] (List.forall_mem_singleton.2 h)

theorem exists_shares_map {P : Place → Prop} {ps : List Place} {f : Json → Json}
    {values : List Json} (h : ∀ value ∈ values, Alike value (f value)) :
    (∃ shares, shares.flatten = values.map f ∧
      List.Forall₂ (fun p share ↦ P p ∧ p.Takes share) ps shares) ↔
    ∃ shares, shares.flatten = values ∧
      List.Forall₂ (fun p share ↦ P p ∧ p.Takes share) ps shares := by
  induction ps generalizing values with
  | nil => simp
  | cons p ps ih =>
    constructor
    · rintro ⟨_, same, hs⟩
      cases hs with
      | cons first rest =>
        obtain ⟨share, others, rfl, rfl, behind⟩ := List.map_eq_append_iff.1 same.symm
        rw [List.forall_mem_append] at h
        obtain ⟨shares, rfl, rest⟩ := (ih h.2).1 ⟨_, behind.symm, rest⟩
        exact ⟨share :: shares, rfl, .cons ⟨first.1, (Place.takes_map h.1).1 first.2⟩ rest⟩
    · rintro ⟨_, rfl, hs⟩
      cases hs with
      | @cons _ share _ shares first rest =>
        rw [List.flatten_cons, List.forall_mem_append] at h
        obtain ⟨mapped, same, rest⟩ := (ih h.2).2 ⟨shares, rfl, rest⟩
        refine ⟨share.map f :: mapped, ?_, .cons ⟨first.1, (Place.takes_map h.1).2 first.2⟩ rest⟩
        rw [List.flatten_cons, List.flatten_cons, List.map_append, same]

end Template

namespace Log.Record

theorem alike_redactValue (value : Json) : Template.Alike value (redactValue value) := by
  cases value with
  | text t =>
    refine ⟨rfl, by simp [redactValue, Json.isWritable_text], ?_⟩
    simp only [redactValue, Json.text.injEq, ← List.length_eq_one_iff]
    exact Redaction.length_sanitize_eq_one t
  | null | bool | int | real | list | object => exact ⟨rfl, rfl, .rfl⟩

theorem alike_redactFields (values : Entries Json) :
    Template.Alike (.object values)
      (.object (values.map fun (key, value) ↦ (key, redactValue value))) where
  number := rfl
  writable := by
    have each (value : Json) : (redactValue value).isWritable = value.isWritable :=
      (alike_redactValue value).writable
    rw [Json.isWritable_object, Json.isWritable_object, Bool.eq_iff_iff, Json.fieldsWritable_iff,
      Json.fieldsWritable_iff, List.forall_mem_map]
    simp only [each]
  single := ⟨nofun, nofun⟩

theorem exists_finds_redacted {p : Template.Place} {key : Template.Key} {index : Nat}
    (values : Entries Json) :
    (∃ value, Template.Finds (values.map fun (key, value) ↦ (key, redactValue value)) index key
      value ∧ p.Takes [value]) ↔
    ∃ value, Template.Finds values index key value ∧ p.Takes [value] := by
  have under (key : Text) := values.get?_map redactValue key
  have whole := alike_redactFields values
  constructor
  · rintro ⟨value, finds, takes⟩
    cases finds with
    | whole => exact ⟨_, .whole, (Template.Place.takes_alike whole).1 takes⟩
    | under found =>
      obtain ⟨original, there, rfl⟩ := Option.map_eq_some_iff.1 ((under _).symm.trans found)
      exact ⟨original, .under there, (Template.Place.takes_alike (alike_redactValue _)).1 takes⟩
  · rintro ⟨value, finds, takes⟩
    cases finds with
    | whole => exact ⟨_, .whole, (Template.Place.takes_alike whole).2 takes⟩
    | under found =>
      exact ⟨redactValue value, .under ((under _).trans (congrArg _ found)),
        (Template.Place.takes_alike (alike_redactValue _)).2 takes⟩

theorem suits_redacted (ps : List Template.Place) (r : Record) :
    Template.Suits ps r.redacted.arguments ↔ Template.Suits ps r.arguments := by
  simp only [redacted]
  cases r.arguments with
  | ordered values =>
    exact Template.exists_shares_map fun value _ ↦ alike_redactValue value
  | named values =>
    exact forall₂_congr fun _ _ ↦ exists_finds_redacted values

def Tells (r : Record) (template : Json) : Prop :=
  template.isWritable = true ∧
    (r.isPlain = true ∨ Template.Suits (Template.places template.displayAlone) r.arguments)

theorem exists_message (r : Record) : (∃ t, r.message = .ok t) ↔ r.Tells r.template := by
  rw [message, exists_bind_eq_ok, Tells, Template.written]
  by_cases writable : r.template.isWritable = true
  · by_cases plain : r.isPlain = true
    · simp [writable, plain]
    · simp [writable, plain, Template.exists_fill]
  · simp [writable]

theorem isPlain_redacted (r : Record) : r.redacted.isPlain = r.isPlain := by
  simp only [redacted, isPlain]
  cases r.arguments with
  | ordered values => simp
  | named values => simp

/-- Redaction leaves a record that has a message one that has a message just if its values go with
the places of the redacted template. -/
theorem exists_message_redacted (r : Record) :
    ((∃ t, r.message = .ok t) ↔ r.Tells r.template) ∧
      ((∃ t, r.redacted.message = .ok t) ↔ r.Tells (redactValue r.template)) := by
  refine ⟨r.exists_message, r.redacted.exists_message.trans ?_⟩
  rw [Tells, Tells, isPlain_redacted, suits_redacted]
  rfl

def misplaced : Record where
  template := .text "password=%s"
  arguments := .ordered [.text "x"]
  level := 20
  logger := "vault"
  file := "vault"
  line := 1
  function := "open"
  created := .whole 0
  exception := none

/-- The place is hidden with the password, and the value is left over. -/
theorem not_exists_message_redacted :
    ¬∀ r : Record, (∃ t, r.message = .ok t) → ∃ t, r.redacted.message = .ok t := by
  intro h
  have before : misplaced.message = .ok "password=x" := by decide +kernel
  have after : misplaced.redacted.message = .error .tooMany := by decide +kernel
  obtain ⟨t, told⟩ := h misplaced ⟨_, before⟩
  cases after.symm.trans told

end Log.Record

end ShardVault
