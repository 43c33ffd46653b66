import ShardVault.Proofs.Log.Redaction

namespace ShardVault

namespace Redaction

variable {fits : Pattern} {replacement front : Text} {limit : Nat}
  {inClass other : CodePoint → Bool} {c stop : CodePoint} {s t : Text}

def leading (inClass : CodePoint → Bool) (t : Text) : Nat :=
  (t.takeWhile inClass).length

/-- Nowhere in a text do so many code points of a class stand one after another. -/
def LacksRuns (limit : Nat) (inClass : CodePoint → Bool) (t : Text) : Prop :=
  ∀ run, run <:+: t → (∀ c ∈ run, inClass c = true) → run.length < limit

theorem leading_of_mem (h : inClass c = true) (t : Text) :
    leading inClass (c :: t) = leading inClass t + 1 := by
  rw [leading, List.takeWhile_cons_of_pos h, List.length_cons, leading]

theorem leading_of_notMem (h : inClass c = false) (t : Text) : leading inClass (c :: t) = 0 := by
  rw [leading, List.takeWhile_cons_of_neg (Bool.eq_false_iff.1 h), List.length_nil]

theorem leading_append (hs : inClass stop = false) (t s : Text) :
    leading inClass (t ++ stop :: s) = leading inClass t := by
  induction t with
  | nil => exact leading_of_notMem hs s
  | cons c t ih =>
    cases hc : inClass c with
    | true => rw [List.cons_append, leading_of_mem hc, leading_of_mem hc, ih]
    | false => rw [List.cons_append, leading_of_notMem hc, leading_of_notMem hc]

theorem length_le_leading {run : Text} (hp : run <+: t) (hr : ∀ c ∈ run, inClass c = true) :
    run.length ≤ leading inClass t := by
  obtain ⟨rest, rfl⟩ := hp
  rw [leading, List.takeWhile_append_of_pos hr, List.length_append]
  exact Nat.le_add_right _ _

theorem lacksRuns_cons :
    LacksRuns limit inClass (c :: t) ↔
      leading inClass (c :: t) < limit ∧ LacksRuns limit inClass t := by
  constructor
  · intro h
    refine ⟨h _ (List.takeWhile_prefix inClass).isInfix (List.all_eq_true.1 List.all_takeWhile), ?_⟩
    exact fun run part ↦ h run (part.trans (List.suffix_cons c t).isInfix)
  · rintro ⟨first, rest⟩ run part hr
    rcases List.infix_cons_iff.1 part with front | later
    · exact Nat.lt_of_le_of_lt (length_le_leading front hr) first
    · exact rest run later hr

theorem lacksRuns_of_length (h : t.length < limit) : LacksRuns limit inClass t :=
  fun _ part _ ↦ Nat.lt_of_le_of_lt part.length_le h

theorem LacksRuns.of_infix (h : LacksRuns limit inClass t) (hs : s <:+: t) :
    LacksRuns limit inClass s :=
  fun run part ↦ h run (part.trans hs)

theorem LacksRuns.leading_lt (h : LacksRuns limit inClass t) : leading inClass t < limit :=
  h _ (List.takeWhile_prefix inClass).isInfix (List.all_eq_true.1 List.all_takeWhile)

theorem LacksRuns.mono {most : Nat} (h : LacksRuns limit inClass t)
    (hc : ∀ c, other c = true → inClass c = true) (hl : limit ≤ most) : LacksRuns most other t :=
  fun run part hr ↦ Nat.lt_of_lt_of_le (h run part fun c hm ↦ hc c (hr c hm)) hl

theorem LacksRuns.append (ht : LacksRuns limit inClass t) (hs : LacksRuns limit inClass s)
    (hc : inClass stop = false) : LacksRuns limit inClass (t ++ stop :: s) := by
  induction t with
  | nil =>
    refine lacksRuns_cons.2 ⟨?_, hs⟩
    rw [leading_of_notMem hc]
    exact Nat.zero_lt_of_lt ht.leading_lt
  | cons c t ih =>
    obtain ⟨first, rest⟩ := lacksRuns_cons.1 ht
    have same : leading inClass (c :: (t ++ stop :: s)) = leading inClass (c :: t) :=
      leading_append hc (c :: t) s
    exact lacksRuns_cons.2 ⟨same ▸ first, ih rest⟩

/-- A rule that fits just where a run of a class begins leaves what is before such a run. -/
theorem leading_replaceAll (catches : ∀ t, fits t = none ↔ leading inClass t < limit)
    (h : leading inClass t < limit) :
    leading inClass (replaceAll fits replacement t) = leading inClass t := by
  induction t with
  | nil => rw [replaceAll]
  | cons c t ih =>
    rw [replaceAll, (catches (c :: t)).2 h]
    cases hc : inClass c with
    | false => rw [leading_of_notMem hc, leading_of_notMem hc]
    | true =>
      rw [leading_of_mem hc] at h ⊢
      rw [ih (Nat.lt_of_succ_lt h), leading_of_mem hc]

/-- A rule that fits just where a run of a class begins leaves no such run, if what it puts in has
none and ends outside of the class. -/
theorem lacksRuns_replaceAll (catches : ∀ t, fits t = none ↔ leading inClass t < limit)
    (consumes : Consumes 1 fits) (hf : LacksRuns limit inClass front) (hs : inClass stop = false)
    (t : Text) : LacksRuns limit inClass (replaceAll fits (front ++ [stop]) t) := by
  fun_induction replaceAll fits (front ++ [stop]) t with
  | case1 => exact lacksRuns_of_length (Nat.zero_lt_of_lt hf.leading_lt)
  | case2 c t none ih =>
    have short := (catches (c :: t)).1 none
    have same : leading inClass (replaceAll fits (front ++ [stop]) (c :: t)) =
        leading inClass (c :: t) := leading_replaceAll catches short
    rw [replaceAll, none] at same
    exact lacksRuns_cons.2 ⟨same ▸ short, ih⟩
  | case3 c t rest found smaller ih =>
    rw [List.append_assoc, List.singleton_append]
    exact hf.append ih hs
  | case4 c t rest found larger =>
    have := consumes _ rest found
    rw [List.length_cons] at this
    omega

theorem replaceAll_eq_self (h : ∀ s, s <:+ t → fits s = none) :
    replaceAll fits replacement t = t := by
  induction t with
  | nil => rw [replaceAll]
  | cons c t ih =>
    rw [replaceAll, h _ (List.suffix_refl _), ih fun s hs ↦ h s (hs.trans (List.suffix_cons c t))]

theorem run_eq_none_iff : run limit inClass t = none ↔ leading inClass t < limit := by
  rw [run, leading]
  split
  · next short => exact iff_of_true rfl short
  · next long => exact iff_of_false (Option.some_ne_none _) long

theorem base64Run_eq_none_iff (t : Text) : base64Run t = none ↔ leading isBase64 t < 40 := by
  rw [← run_eq_none_iff]
  simp only [base64Run, Option.bind_eq_bind, Option.bind_eq_none_iff]
  cases run 40 isBase64 t <;> simp

theorem suffix_of_word {w rest : Text} (h : word w t = some rest) : rest <:+ t := by
  induction w generalizing t with
  | nil => exact Option.some.inj h ▸ List.suffix_refl _
  | cons p w ih =>
    cases t with
    | nil => cases h
    | cons c t =>
      rw [word] at h
      split at h
      · exact (ih h).trans (List.suffix_cons c t)
      · cases h

theorem hexRun_eq_none (h : LacksRuns 64 isHex t) : hexRun t = none := by
  have plain {s : Text} (hs : s <:+ t) : run 64 isHex s = none :=
    run_eq_none_iff.2 (h.of_infix hs.isInfix).leading_lt
  rw [hexRun, plain (List.suffix_refl t), Option.or_none, Option.bind_eq_none_iff]
  exact fun rest marked ↦ plain (suffix_of_word marked)

theorem isBase64_of_isHex (c : CodePoint) (h : isHex c = true) : isBase64 c = true := by
  simp only [isHex, CodePoint.hexValue?, CodePoint.within] at h
  simp only [isBase64, CodePoint.isAsciiLetter, CodePoint.isAsciiDigit, CodePoint.within]
  grind

/-- No forty characters that may spell a key stand one after another in a text, and no sixty-four
hexadecimal digits. -/
structure IsClean (t : Text) : Prop where
  base64 : LacksRuns 40 isBase64 t
  hex : LacksRuns 64 isHex t

theorem isClean_of_lacksRuns (h : LacksRuns 40 isBase64 t) : IsClean t :=
  ⟨h, h.mono isBase64_of_isHex (by decide)⟩

theorem isClean_sanitize (t : Text) : IsClean (sanitize [] t) := by
  let front : Text := "base64_secret=[REDACTED"
  have inserted : (("base64_secret" : Text) ++ "=" ++ mark) = front ++ [CodePoint.ofChar ']'] := by
    decide
  simp only [sanitize, rules, List.foldl_cons, List.foldl_nil, inserted]
  generalize replaceAll (assignment (oneOf ["token", "bearer"])) _ _ = assigned
  have hidden : LacksRuns 40 isBase64
      (replaceAll base64Run (front ++ [CodePoint.ofChar ']']) assigned) :=
    lacksRuns_replaceAll base64Run_eq_none_iff (consumes_base64Run.weaken (by decide))
      (lacksRuns_of_length (by decide)) (by decide) assigned
  have clean := isClean_of_lacksRuns hidden
  rwa [replaceAll_eq_self fun s hs ↦ hexRun_eq_none (clean.hex.of_infix hs.isInfix)]

end Redaction

def Arguments.values : Arguments → List Json
  | ordered values => values
  | named values => values.map (·.2)

namespace Log.Record

theorem values_redacted (r : Record) :
    r.redacted.arguments.values = r.arguments.values.map redactValue := by
  simp only [redacted]
  cases r.arguments with
  | ordered values => rfl
  | named values => simp only [Arguments.values, List.map_map, Function.comp_def]

theorem isClean_of_redactValue {value : Json} {t : Text} (h : redactValue value = .text t) :
    Redaction.IsClean t := by
  cases value with
  | text u =>
    obtain rfl := Json.text.inj h
    exact Redaction.isClean_sanitize u
  | null | bool | int | real | list | object => cases h

/-- Whatever is redacted has no long runs, neither a text for itself nor the template or a text among
the values of a record. -/
theorem isClean_redacted (r : Record) :
    (∀ t, Redaction.IsClean (Redaction.sanitize [] t)) ∧
      ∀ t, r.redacted.template = .text t ∨ .text t ∈ r.redacted.arguments.values →
        Redaction.IsClean t := by
  refine ⟨Redaction.isClean_sanitize, ?_⟩
  rintro t (template | value)
  · exact isClean_of_redactValue template
  · rw [values_redacted] at value
    obtain ⟨original, -, same⟩ := List.mem_map.1 value
    exact isClean_of_redactValue same

/-- A record with a quoted token directly before thirty-nine letters, and a key among its values. -/
def adjacent : Record where
  template := .text ("token='x'" ++ List.replicate 39 (CodePoint.ofChar 'A'))
  arguments := .ordered [.text (List.replicate 64 (CodePoint.ofChar 'a'))]
  level := 20
  logger := "vault"
  file := "vault"
  line := 1
  function := "open"
  created := .whole 0
  exception := none

theorem isClean_redacted_adjacent :
    let shown : Text := "token=[REDACTED]" ++ List.replicate 39 (CodePoint.ofChar 'A')
    adjacent.redacted.template = .text shown ∧ Redaction.IsClean shown ∧
      .text "base64_secret=[REDACTED]" ∈ adjacent.redacted.arguments.values ∧
      Redaction.IsClean "base64_secret=[REDACTED]" := by
  intro shown
  have template : adjacent.redacted.template = .text shown := congrArg Json.text (by decide +kernel)
  have value : .text "base64_secret=[REDACTED]" ∈ adjacent.redacted.arguments.values :=
    List.mem_singleton.2 (congrArg Json.text (by decide +kernel))
  have clean := adjacent.isClean_redacted.2
  exact ⟨template, clean shown (.inl template), value, clean _ (.inr value)⟩

end Log.Record

end ShardVault
