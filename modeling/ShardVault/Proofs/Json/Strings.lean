import Mathlib.Data.List.Chain
import ShardVault.Json.Reader
import ShardVault.Json.Writer
import ShardVault.Proofs.Text.Digits

namespace ShardVault

def CodePoint.IsHigh (c : CodePoint) : Prop := c.val / 0x400 = 0x36

def CodePoint.IsLow (c : CodePoint) : Prop := c.val / 0x400 = 0x37

def Text.Unpaired (t : Text) : Prop :=
  t.IsChain fun a b ↦ a.IsHigh → ¬ b.IsLow

theorem CodePoint.not_isHigh {c : CodePoint} (h : c.isSurrogate = false) : ¬ c.IsHigh := by
  simp only [isSurrogate, Bool.and_eq_false_iff, decide_eq_false_iff_not] at h
  unfold IsHigh
  omega

theorem Text.unpaired_of_isScalar {t : Text} (ht : t.isScalar = true) : t.Unpaired := by
  have h : ∀ c ∈ t, c.isSurrogate = false := by simpa [Text.isScalar] using ht
  clear ht
  unfold Unpaired
  induction t with
  | nil => exact .nil
  | cons c t ih =>
    refine List.isChain_cons.2 ⟨?_, ih fun x hx ↦ h x (by simp [hx])⟩
    intro d _ hc
    exact absurd hc (CodePoint.not_isHigh (h c (by simp)))

namespace Json

def Legible (asciiOnly : Bool) (t : Text) : Prop :=
  asciiOnly = true → t.Unpaired

theorem legible_of_isScalar {t : Text} (ht : t.isScalar = true) (asciiOnly : Bool) :
    Legible asciiOnly t := fun _ ↦ Text.unpaired_of_isScalar ht

section

variable {done rest t : Text} {fuel : Nat} {c p : CodePoint}

theorem readString_quote : readString done (fuel + 1) (CodePoint.ofChar '"' :: rest) =
    .ok (done.reverse, rest) := by
  simp [readString]

theorem readString_plain (h1 : c.val ≠ 34) (h2 : c.val ≠ 92) (h3 : 0x20 ≤ c.val) :
    readString done (fuel + 1) (c :: rest) = readString (c :: done) fuel rest := by
  have hq : c ≠ CodePoint.ofChar '"' := fun h ↦ h1 (h ▸ rfl)
  have hb : c ≠ CodePoint.ofChar '\\' := fun h ↦ h2 (h ▸ rfl)
  simp [readString, hq, hb, Nat.not_lt.2 h3]

theorem readString_escape (h : escape? t = some (p, rest)) :
    readString done (fuel + 1) (CodePoint.ofChar '\\' :: t) = readString (p :: done) fuel rest := by
  have hq : CodePoint.ofChar '\\' ≠ CodePoint.ofChar '"' := by decide
  simp [readString, hq, h]

theorem unit?_hexPadded {n : Nat} (h : n < 0x10000) :
    unit? (Text.hexPadded 4 n ++ rest) = some (n, rest) := by
  have digit : ∀ k, (CodePoint.ofHexDigit (k % 16)).hexValue? = some (k % 16) := by
    have digits : ∀ k : Fin 16, (CodePoint.ofHexDigit k).hexValue? = some k.val := by decide
    exact fun k ↦ digits ⟨k % 16, Nat.mod_lt k (by decide)⟩
  simp only [Text.hexPadded, List.nil_append, List.cons_append, unit?, digit]
  simp only [Option.bind_eq_bind, Option.bind_some, Option.some.injEq, Prod.mk.injEq, and_true]
  omega

theorem unitEscape?_hexPadded {n : Nat} (h : n < 0x10000) :
    unitEscape? (CodePoint.ofChar 'u' :: (Text.hexPadded 4 n ++ rest)) = some (n, rest) := by
  simp [unitEscape?, unit?_hexPadded h]

theorem lowHalf?_unitEscape {n : Nat} (h : n < 0x10000) :
    lowHalf? (unitEscape n ++ rest) = if n / 0x400 = 0x37 then some (n, rest) else none := by
  have split : unitEscape n ++ rest =
      CodePoint.ofChar '\\' :: CodePoint.ofChar 'u' :: (Text.hexPadded 4 n ++ rest) := rfl
  rw [split]
  simp [lowHalf?, unitEscape?_hexPadded h]

theorem escape?_unit {n : Nat} (h : n < 0x10000) (hr : n / 0x400 = 0x36 → lowHalf? rest = none) :
    escape? (CodePoint.ofChar 'u' :: (Text.hexPadded 4 n ++ rest)) =
      some (CodePoint.ofNat n, rest) := by
  simp only [escape?, unitEscape?_hexPadded h]
  split
  · next hn => rw [hr hn]
  · rfl

theorem escape?_pair {hi lo : Nat} (h1 : hi < 0x10000) (h2 : lo < 0x10000)
    (hhi : hi / 0x400 = 0x36) (hlo : lo / 0x400 = 0x37) :
    escape? (CodePoint.ofChar 'u' :: (Text.hexPadded 4 hi ++ (unitEscape lo ++ rest))) =
      some (CodePoint.ofNat (0x10000 + (hi - 0xD800) * 0x400 + (lo - 0xDC00)), rest) := by
  simp only [escape?, unitEscape?_hexPadded h1, hhi, lowHalf?_unitEscape h2, hlo, if_true]

theorem escape?_short (letter : CodePoint) (hu : letter ≠ CodePoint.ofChar 'u')
    (h : shortEscape? letter = some p) : escape? (letter :: rest) = some (p, rest) := by
  simp [escape?, unitEscape?, hu, h]

end

theorem readString_unitEscape {n : Nat} {done rest : Text} {fuel : Nat} (h : n < 0x10000)
    (hr : n / 0x400 = 0x36 → lowHalf? rest = none) :
    readString done (fuel + 1) (unitEscape n ++ rest) =
      readString (CodePoint.ofNat n :: done) fuel rest :=
  readString_escape (escape?_unit h hr)

/-- How a code point may stand between quotes: as itself, as a letter after a backslash, or as the
escape of its number or those of its halves. -/
inductive Spelling (asciiOnly : Bool) (c : CodePoint) : Text → Prop
  | plain (quote : c.val ≠ 34) (backslash : c.val ≠ 92) (printed : 0x20 ≤ c.val)
      (ascii : asciiOnly = true → c.isSurrogate = false) : Spelling asciiOnly c [c]
  | short (letter : Char) (known : letter ∈ ['"', '\\', 'n', 'r', 't', 'f', 'b'])
      (meant : shortEscape? (CodePoint.ofChar letter) = some c) :
      Spelling asciiOnly c [CodePoint.ofChar '\\', CodePoint.ofChar letter]
  | unit (small : c.val < 0x10000) (needed : asciiOnly = true ∨ c.val < 0x20) :
      Spelling asciiOnly c (unitEscape c.val)
  | pair (high low : Nat) (isHigh : high / 0x400 = 0x36) (isLow : low / 0x400 = 0x37)
      (joined : 0x10000 + (high - 0xD800) * 0x400 + (low - 0xDC00) = c.val) :
      Spelling asciiOnly c (unitEscape high ++ unitEscape low)

theorem ne_u_of_mem {letter : Char} (h : letter ∈ ['"', '\\', 'n', 'r', 't', 'f', 'b']) :
    CodePoint.ofChar letter ≠ CodePoint.ofChar 'u' := by
  have letters : (['"', '\\', 'n', 'r', 't', 'f', 'b'].all fun letter ↦
      CodePoint.ofChar letter != CodePoint.ofChar 'u') = true := by decide
  simpa using List.all_eq_true.1 letters letter h

theorem spelling_writePoint (asciiOnly : Bool) (c : CodePoint) :
    Spelling asciiOnly c (writePoint asciiOnly c) := by
  have hlt := c.isLt
  have short (letter : Char) (known : letter ∈ ['"', '\\', 'n', 'r', 't', 'f', 'b']) (n : Nat)
      (hn : c.val = n) (meant : shortEscape? (CodePoint.ofChar letter) = some (CodePoint.ofNat n)) :
      Spelling asciiOnly c [CodePoint.ofChar '\\', CodePoint.ofChar letter] := by
    subst hn
    refine .short letter known (meant.trans (congrArg some ?_))
    exact Fin.ext (Nat.mod_eq_of_lt hlt)
  rw [writePoint]
  refine iteInduction (short '"' (by decide) 34 · (by decide)) ?_
  intro quote
  refine iteInduction (short '\\' (by decide) 92 · (by decide)) ?_
  intro backslash
  refine iteInduction (short 'n' (by decide) 10 · (by decide)) ?_
  intro _
  refine iteInduction (short 'r' (by decide) 13 · (by decide)) ?_
  intro _
  refine iteInduction (short 't' (by decide) 9 · (by decide)) ?_
  intro _
  refine iteInduction (short 'f' (by decide) 12 · (by decide)) ?_
  intro _
  refine iteInduction (short 'b' (by decide) 8 · (by decide)) ?_
  intro _
  refine iteInduction (fun control ↦ .unit (by omega) (.inr control)) ?_
  intro printed
  refine iteInduction (fun shown ↦ .plain quote backslash (Nat.not_lt.1 printed) ?_) ?_
  · rintro rfl
    simp only [Bool.not_true, Bool.false_or, decide_eq_true_eq] at shown
    simp only [CodePoint.isSurrogate, Bool.and_eq_false_iff, decide_eq_false_iff_not]
    omega
  intro ascii
  refine iteInduction (fun small ↦ .unit small (.inl ?_)) fun large ↦ ?_
  · simp only [Bool.or_eq_true, Bool.not_eq_true', not_or, Bool.not_eq_false] at ascii
    exact ascii.1
  · exact .pair _ _ (by omega) (by omega) (by omega)

theorem readString_writePoint {asciiOnly : Bool} {c : CodePoint} {rest : Text}
    (hr : asciiOnly = true → c.IsHigh → lowHalf? rest = none) (done : Text) (fuel : Nat) :
    readString done (fuel + 1) (writePoint asciiOnly c ++ rest) =
      readString (c :: done) fuel rest := by
  have same {n : Nat} (hn : n = c.val) : CodePoint.ofNat n = c := by
    subst hn
    exact Fin.ext (Nat.mod_eq_of_lt c.isLt)
  have spelling := spelling_writePoint asciiOnly c
  generalize writePoint asciiOnly c = written at spelling ⊢
  cases spelling with
  | plain quote backslash printed => exact readString_plain quote backslash printed
  | short letter known meant =>
    exact readString_escape (escape?_short _ (ne_u_of_mem known) meant)
  | unit small needed =>
    rw [readString_unitEscape small, same rfl]
    intro high
    rcases needed with ha | control
    · exact hr ha high
    · omega
  | pair high low isHigh isLow joined =>
    rw [List.append_assoc]
    refine (readString_escape (escape?_pair (by omega) (by omega) isHigh isLow)).trans ?_
    rw [same joined]

theorem lowHalf?_quote (rest : Text) : lowHalf? (CodePoint.ofChar '"' :: rest) = none := by
  simp [lowHalf?, show CodePoint.ofChar '"' ≠ CodePoint.ofChar '\\' by decide]

theorem lowHalf?_writePoint {asciiOnly : Bool} {c : CodePoint} (hc : ¬ c.IsLow) (rest : Text) :
    lowHalf? (writePoint asciiOnly c ++ rest) = none := by
  have spelling := spelling_writePoint asciiOnly c
  generalize writePoint asciiOnly c = written at spelling ⊢
  cases spelling with
  | plain _ backslash _ =>
    have hb : c ≠ CodePoint.ofChar '\\' := fun he ↦ backslash (he ▸ rfl)
    simp [lowHalf?, hb]
  | short letter known _ => simp [lowHalf?, unitEscape?, ne_u_of_mem known]
  | unit small _ =>
    rw [lowHalf?_unitEscape small]
    exact if_neg hc
  | pair high low isHigh _ _ =>
    rw [List.append_assoc, lowHalf?_unitEscape (by omega), if_neg (by omega)]

theorem readString_flatMap {asciiOnly : Bool} {t : Text} (ht : Legible asciiOnly t)
    (rest done : Text) {fuel : Nat} (hf : t.length < fuel) :
    readString done fuel (t.flatMap (writePoint asciiOnly) ++ CodePoint.ofChar '"' :: rest) =
      .ok (done.reverse ++ t, rest) := by
  induction t generalizing done fuel with
  | nil =>
    obtain ⟨fuel, rfl⟩ := Nat.exists_eq_add_of_lt hf
    simpa using readString_quote
  | cons c t ih =>
    obtain ⟨fuel, rfl⟩ : ∃ k, fuel = k + 1 := ⟨fuel - 1, by simp at hf; omega⟩
    have hr : asciiOnly = true → c.IsHigh → lowHalf? (t.flatMap (writePoint asciiOnly) ++
        CodePoint.ofChar '"' :: rest) = none := by
      intro ha hc
      cases t with
      | nil => exact lowHalf?_quote rest
      | cons d t =>
        rw [List.flatMap_cons, List.append_assoc]
        exact lowHalf?_writePoint ((List.isChain_cons_cons.1 (ht ha)).1 hc) _
    rw [List.flatMap_cons, List.append_assoc, readString_writePoint hr,
      ih (fun ha ↦ (ht ha).tail) _ (by simpa using hf)]
    simp

theorem length_writePoint_pos (asciiOnly : Bool) (c : CodePoint) :
    0 < (writePoint asciiOnly c).length := by
  have spelling := spelling_writePoint asciiOnly c
  generalize writePoint asciiOnly c = written at spelling ⊢
  cases spelling with
  | plain => exact Nat.one_pos
  | short => exact Nat.two_pos
  | unit => exact Nat.succ_pos _
  | pair => exact Nat.succ_pos _

theorem length_le_flatMap (asciiOnly : Bool) (t : Text) :
    t.length ≤ (t.flatMap (writePoint asciiOnly)).length := by
  induction t with
  | nil => simp
  | cons c t ih =>
    have := length_writePoint_pos asciiOnly c
    simp only [List.length_cons, List.flatMap_cons, List.length_append]
    omega

theorem writeText_append (asciiOnly : Bool) (t rest : Text) :
    writeText asciiOnly t ++ rest = CodePoint.ofChar '"' ::
      (t.flatMap (writePoint asciiOnly) ++ CodePoint.ofChar '"' :: rest) := by
  have quote : (("\"" : String) : Text) = [CodePoint.ofChar '"'] := rfl
  simp [writeText, quote]

theorem length_lt_writeText (asciiOnly : Bool) (t : Text) :
    t.length + 1 < (writeText asciiOnly t).length := by
  have h := congrArg List.length (writeText_append asciiOnly t [])
  have := length_le_flatMap asciiOnly t
  simp only [List.append_nil, List.length_cons, List.length_append, List.length_nil] at h
  omega

end Json

end ShardVault
