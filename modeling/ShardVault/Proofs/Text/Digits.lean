import ShardVault.Text.Numeral

namespace ShardVault

def CodePoint.ofDigit (d : Nat) : CodePoint := CodePoint.ofChar (Nat.digitChar d)

def CodePoint.asDigit (c : CodePoint) : Nat := c.val - 48

theorem CodePoint.val_ofChar (c : Char) : (CodePoint.ofChar c).val = c.toNat := rfl

theorem CodePoint.val_ofNat {n : Nat} (h : n < 0x110000) : (CodePoint.ofNat n).val = n :=
  Nat.mod_eq_of_lt h

theorem CodePoint.within_iff {c : CodePoint} {lo hi : Char} :
    c.within lo hi = true ↔ lo.toNat ≤ c.val ∧ c.val ≤ hi.toNat := by
  rw [within, Bool.and_eq_true, decide_eq_true_eq, decide_eq_true_eq]
  rfl

theorem CodePoint.hexValue?_eq_some_iff {c : CodePoint} {n : Nat} : c.hexValue? = some n ↔
    c.val = 48 + n ∧ n < 10 ∨ (c.val = 87 + n ∨ c.val = 55 + n) ∧ 10 ≤ n ∧ n < 16 := by
  have digit : c.within '0' '9' = true ↔ 48 ≤ c.val ∧ c.val ≤ 57 := within_iff
  have small : c.within 'a' 'f' = true ↔ 97 ≤ c.val ∧ c.val ≤ 102 := within_iff
  have capital : c.within 'A' 'F' = true ↔ 65 ≤ c.val ∧ c.val ≤ 70 := within_iff
  simp only [hexValue?, digit, small, capital]
  split
  · simp only [Option.some.injEq]
    omega
  split
  · simp only [Option.some.injEq]
    omega
  split
  · simp only [Option.some.injEq]
    omega
  · simp only [reduceCtorEq, false_iff]
    omega

theorem CodePoint.hexValue?_lt {c : CodePoint} {n : Nat} (h : c.hexValue? = some n) : n < 16 := by
  have := hexValue?_eq_some_iff.1 h
  omega

theorem CodePoint.isAsciiDigit_iff (c : CodePoint) :
    c.isAsciiDigit = true ↔ 48 ≤ c.val ∧ c.val ≤ 57 := by
  simp [isAsciiDigit, within]

theorem CodePoint.isAsciiDigit_ofDigit {d : Nat} (h : d < 10) :
    (CodePoint.ofDigit d).isAsciiDigit = true := by
  have digits : ∀ n : Fin 10, (CodePoint.ofDigit n).isAsciiDigit = true := by decide
  exact digits ⟨d, h⟩

theorem CodePoint.asDigit_ofDigit {d : Nat} (h : d < 10) : (CodePoint.ofDigit d).asDigit = d := by
  have digits : ∀ n : Fin 10, (CodePoint.ofDigit n).asDigit = n := by decide
  exact digits ⟨d, h⟩

theorem Numeral.ofDigits_append_one (ds : List Nat) (d : Nat) :
    Numeral.ofDigits (ds ++ [d]) = Numeral.ofDigits ds * 10 + d := by
  simp [Numeral.ofDigits]

theorem Numeral.ofDigits_zeros (n : Nat) (ds : List Nat) :
    Numeral.ofDigits (List.replicate n 0 ++ ds) = Numeral.ofDigits ds := by
  induction n with
  | zero => rfl
  | succ n ih => simpa [List.replicate_succ, Numeral.ofDigits] using ih

namespace Text

theorem ofNat_of_lt {n : Nat} (h : n < 10) : ofNat n = [CodePoint.ofDigit n] := by
  simp [ofNat, Nat.toDigits_of_lt_base h, CodePoint.ofDigit]

theorem ofNat_of_ge {n : Nat} (h : 10 ≤ n) :
    ofNat n = ofNat (n / 10) ++ [CodePoint.ofDigit (n % 10)] := by
  simp [ofNat, Nat.toDigits_of_base_le (by decide : 1 < 10) h, CodePoint.ofDigit]

theorem digit_induction {P : Nat → Prop} (single : ∀ n, n < 10 → P n)
    (digit : ∀ n, 10 ≤ n → P (n / 10) → P n) (n : Nat) : P n := by
  induction n using Nat.strongRecOn with
  | ind n ih =>
    by_cases h : n < 10
    · exact single n h
    · exact digit n (by omega) (ih (n / 10) (by omega))

theorem ofNat_ne_nil (n : Nat) : ofNat n ≠ [] := by
  simp [ofNat]

theorem length_ofNat_le_iff {n k : Nat} (h : 0 < k) : (ofNat n).length ≤ k ↔ n < Nat.pow 10 k := by
  simpa [ofNat] using Nat.length_toDigits_le_iff (by decide : 1 < 10) h

theorem all_isAsciiDigit_ofNat (n : Nat) : ∀ c ∈ ofNat n, c.isAsciiDigit = true := by
  induction n using digit_induction with
  | single n h => simp [ofNat_of_lt h, CodePoint.isAsciiDigit_ofDigit h]
  | digit n h ih =>
    intro c hc
    rw [ofNat_of_ge h, List.mem_append, List.mem_singleton] at hc
    rcases hc with hc | rfl
    · exact ih c hc
    · exact CodePoint.isAsciiDigit_ofDigit (by omega)

theorem ofDigits_ofNat (n : Nat) : Numeral.ofDigits ((ofNat n).map CodePoint.asDigit) = n := by
  induction n using digit_induction with
  | single n h => simp [ofNat_of_lt h, CodePoint.asDigit_ofDigit h, Numeral.ofDigits]
  | digit n h ih =>
    rw [ofNat_of_ge h, List.map_append, List.map_singleton, Numeral.ofDigits_append_one, ih,
      CodePoint.asDigit_ofDigit (by omega)]
    omega

theorem asDigit_head_ofNat {n : Nat} (h : 0 < n) : ∀ c ∈ (ofNat n).head?, c.asDigit ≠ 0 := by
  induction n using digit_induction with
  | single n hn =>
    rw [ofNat_of_lt hn]
    rintro c ⟨⟩
    rw [CodePoint.asDigit_ofDigit hn]
    omega
  | digit n hn ih =>
    obtain ⟨d, ds, hds⟩ := List.exists_cons_of_ne_nil (ofNat_ne_nil (n / 10))
    have h := ih (by omega)
    rw [hds] at h
    rw [ofNat_of_ge hn, hds]
    exact h

theorem ofNat_injective {m n : Nat} (h : ofNat m = ofNat n) : m = n := by
  rw [← ofDigits_ofNat m, h, ofDigits_ofNat]

theorem all_isAsciiDigit_padded (width n : Nat) :
    ∀ c ∈ padded width n, c.isAsciiDigit = true := by
  intro c hc
  rcases List.mem_append.1 hc with hc | hc
  · rw [List.eq_of_mem_replicate hc]
    decide
  · exact all_isAsciiDigit_ofNat n c hc

theorem ofDigits_padded (width n : Nat) :
    Numeral.ofDigits ((padded width n).map CodePoint.asDigit) = n := by
  have zero : (CodePoint.ofChar '0').asDigit = 0 := by decide
  simp only [padded, List.map_append, List.map_replicate, zero]
  rw [Numeral.ofDigits_zeros, ofDigits_ofNat]

theorem length_padded {width n : Nat} (hw : 0 < width) (h : n < Nat.pow 10 width) :
    (padded width n).length = width := by
  have := (length_ofNat_le_iff hw).2 h
  simp only [padded, List.length_append, List.length_replicate]
  omega

end Text

end ShardVault
