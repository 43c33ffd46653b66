import ShardVault.Proofs.Json.Strings

namespace ShardVault.Json

def Ends (rest : Text) : Prop :=
  ∀ c ∈ rest.head?, c = CodePoint.ofChar ',' ∨ c = CodePoint.ofChar ']' ∨ c = CodePoint.ofChar '\x7d'

def IsOpening (c : CodePoint) : Prop :=
  isSpace c = false ∧ c ≠ CodePoint.ofChar ']' ∧ c ≠ CodePoint.ofChar '\x7d'

instance (c : CodePoint) : Decidable (IsOpening c) :=
  inferInstanceAs (Decidable (_ ∧ _))

def Starts (t : Text) : Prop :=
  ∃ c u, t = c :: u ∧ IsOpening c

theorem ends_nil : Ends [] := by simp [Ends]

theorem ends_comma (rest : Text) : Ends (CodePoint.ofChar ',' :: rest) := by simp [Ends]

theorem ends_bracket (rest : Text) : Ends (CodePoint.ofChar ']' :: rest) := by simp [Ends]

theorem ends_brace (rest : Text) : Ends (CodePoint.ofChar '\x7d' :: rest) := by simp [Ends]

theorem Starts.append {t : Text} (h : Starts t) (rest : Text) : Starts (t ++ rest) := by
  obtain ⟨c, u, rfl, hc⟩ := h
  exact ⟨c, u ++ rest, rfl, hc⟩

theorem Starts.skipSpace_eq {t : Text} (h : Starts t) : skipSpace t = t := by
  obtain ⟨c, u, rfl, hc⟩ := h
  simp [skipSpace, hc.1]

theorem Starts.length_pos {t : Text} (h : Starts t) : 0 < t.length := by
  obtain ⟨c, u, rfl, -⟩ := h
  exact Nat.zero_lt_succ _

theorem skipSpace_append {gap : Text} (h : ∀ c ∈ gap, isSpace c = true) (t : Text) :
    skipSpace (gap ++ t) = skipSpace t :=
  List.dropWhile_append_of_pos h

theorem Ends.not_digit {rest : Text} (h : Ends rest) :
    ∀ c ∈ rest.head?, c.isAsciiDigit = false := by
  intro c hc
  rcases h c hc with rfl | rfl | rfl <;> decide

theorem digits_append {t rest : Text} (ht : ∀ c ∈ t, c.isAsciiDigit = true) (hr : Ends rest) :
    digits (t ++ rest) = (t.map CodePoint.asDigit, rest) := by
  have h1 : rest.takeWhile CodePoint.isAsciiDigit = [] := by
    cases rest with
    | nil => rfl
    | cons c rest => simp [hr.not_digit c rfl]
  have h2 : rest.dropWhile CodePoint.isAsciiDigit = rest := by
    cases rest with
    | nil => rfl
    | cons c rest => simp [hr.not_digit c rfl]
  simp only [digits, List.takeWhile_append_of_pos ht, List.dropWhile_append_of_pos ht, h1, h2,
    List.append_nil, Prod.mk.injEq, and_true]
  rfl

theorem whole?_ofNat (n : Nat) {rest : Text} (hr : Ends rest) :
    whole? (Text.ofNat n ++ rest) = some ((Text.ofNat n).map CodePoint.asDigit, rest) := by
  have hd := digits_append (Text.all_isAsciiDigit_ofNat n) hr
  rcases Nat.eq_zero_or_pos n with rfl | hn
  · have zero : Text.ofNat 0 = [CodePoint.ofChar '0'] := rfl
    have digit : (CodePoint.ofChar '0').asDigit = 0 := rfl
    rw [zero, List.singleton_append] at hd ⊢
    simp only [whole?, hd, List.map_cons, List.map_nil, digit, List.drop_succ_cons, List.drop_zero]
  · obtain ⟨c, t, hct⟩ := List.exists_cons_of_ne_nil (Text.ofNat_ne_nil n)
    have hc : c.asDigit ≠ 0 := Text.asDigit_head_ofNat hn c (by simp [hct])
    rw [hct, List.map_cons] at hd ⊢
    rw [whole?, hd]
    split
    · next h => cases h
    · next h =>
      injection h with h _
      injection h with h _
      exact absurd h hc
    · rfl

theorem fraction?_of_ends {rest : Text} (hr : Ends rest) : fraction? rest = none := by
  cases rest with
  | nil => rfl
  | cons c rest =>
    rcases hr c rfl with rfl | rfl | rfl <;> rfl

theorem exponent?_of_ends {rest : Text} (hr : Ends rest) : exponent? rest = none := by
  cases rest with
  | nil => rfl
  | cons c rest =>
    rcases hr c rfl with rfl | rfl | rfl <;> rfl

theorem readNumber_ofInt_eq (n : Int) {rest : Text} (hr : Ends rest) :
    readNumber (Text.ofInt n ++ rest) =
      if Numeral.digitLimit < (Text.ofNat n.natAbs).length then
        .error (.tooManyDigits (Text.ofNat n.natAbs).length)
      else .ok (.int n, rest) := by
  obtain ⟨c, t, hct⟩ := List.exists_cons_of_ne_nil (Text.ofNat_ne_nil n.natAbs)
  have hw := whole?_ofNat n.natAbs hr
  have hv := Text.ofDigits_ofNat n.natAbs
  rw [hct] at hw hv
  by_cases h : n < 0
  · have split : Text.ofInt n = CodePoint.ofChar '-' :: c :: t := by
      rw [Text.ofInt, if_pos h, hct]
      rfl
    rw [split, List.cons_append, readNumber]
    simp only [if_true, hw, fraction?_of_ends hr, exponent?_of_ends hr, Option.getD_none, hv,
      List.length_map, hct, show -(n.natAbs : Int) = n by omega]
  · have split : Text.ofInt n = c :: t := by rw [Text.ofInt, if_neg h, hct]
    have hc : c ≠ CodePoint.ofChar '-' := by
      have hd := Text.all_isAsciiDigit_ofNat n.natAbs c (by simp [hct])
      rintro rfl
      exact absurd hd (by decide)
    rw [List.cons_append] at hw
    rw [split, List.cons_append, readNumber]
    simp only [hc, if_false, hw, fraction?_of_ends hr, exponent?_of_ends hr, Option.getD_none,
      if_true, hv, List.length_map, hct, show (n.natAbs : Int) = n by omega, Bool.false_eq_true]

theorem readNumber_ofInt {n : Int} (hn : n.natAbs < Nat.pow 10 Numeral.digitLimit) {rest : Text}
    (hr : Ends rest) : readNumber (Text.ofInt n ++ rest) = .ok (.int n, rest) := by
  have few := (Text.length_ofNat_le_iff (by decide)).2 hn
  rw [readNumber_ofInt_eq n hr, if_neg (Nat.not_lt.2 few)]

theorem isOpening_of_digit {c : CodePoint} (h : c.isAsciiDigit = true) : IsOpening c := by
  have hc := (CodePoint.isAsciiDigit_iff c).1 h
  refine ⟨?_, ?_, ?_⟩
  · simp only [isSpace, Bool.or_eq_false_iff, beq_eq_false_iff_ne]
    omega
  · rintro rfl
    exact absurd h (by decide)
  · rintro rfl
    exact absurd h (by decide)

theorem ofInt_cases (n : Int) :
    (∃ d t, Text.ofInt n = d :: t ∧ d.isAsciiDigit = true) ∨
      ∃ d t, Text.ofInt n = CodePoint.ofChar '-' :: d :: t ∧ d.isAsciiDigit = true := by
  obtain ⟨d, t, hdt⟩ := List.exists_cons_of_ne_nil (Text.ofNat_ne_nil n.natAbs)
  have hd := Text.all_isAsciiDigit_ofNat n.natAbs d (by simp [hdt])
  by_cases h : n < 0
  · refine .inr ⟨d, t, ?_, hd⟩
    rw [Text.ofInt, if_pos h, hdt]
    rfl
  · exact .inl ⟨d, t, by rw [Text.ofInt, if_neg h, hdt], hd⟩

theorem readScalar_ofInt (n : Int) (rest : Text) :
    readScalar (Text.ofInt n ++ rest) = readNumber (Text.ofInt n ++ rest) := by
  have letters : ∀ w ∈ words, ∃ c d u, w.1 = c :: d :: u ∧ c.isAsciiDigit = false ∧
      d.isAsciiDigit = false := by
    simp only [words, List.mem_cons, List.not_mem_nil, or_false, forall_eq_or_imp, forall_eq]
    exact ⟨⟨_, _, _, rfl, rfl, rfl⟩, ⟨_, _, _, rfl, rfl, rfl⟩, ⟨_, _, _, rfl, rfl, rfl⟩,
      ⟨_, _, _, rfl, rfl, rfl⟩, ⟨_, _, _, rfl, rfl, rfl⟩, ⟨_, _, _, rfl, rfl, rfl⟩⟩
  have other : ∀ {c d : CodePoint}, c.isAsciiDigit = false → d.isAsciiDigit = true →
      (c == d) = false := by
    intro c d hc hd
    rw [beq_eq_false_iff_ne]
    rintro rfl
    exact absurd (hc.symm.trans hd) Bool.false_ne_true
  have none : words.find? (fun w ↦ w.1.isPrefixOf (Text.ofInt n ++ rest)) = none := by
    rw [List.find?_eq_none]
    intro w hw
    obtain ⟨c, d, u, hcd, hc, hd⟩ := letters w hw
    rcases ofInt_cases n with ⟨e, t, h, he⟩ | ⟨e, t, h, he⟩
    · simp [hcd, h, List.isPrefixOf, other hc he]
    · simp [hcd, h, List.isPrefixOf, other hd he]
  rw [readScalar, none]

end ShardVault.Json
