import Mathlib.Algebra.Ring.Nat
import ShardVault.Proofs.Result
import ShardVault.Time.Stamp

namespace ShardVault

namespace Date

def lastNumber : Nat := 3652059

theorem monthAt_of_lt (month : Nat) {lengths : List Nat} {place : Nat} (h : place < lengths.sum) :
    ∃ k, k < lengths.length ∧ (monthAt month lengths place).1 = month + k ∧
      1 ≤ (monthAt month lengths place).2 ∧
      (monthAt month lengths place).2 ≤ lengths.getD k 0 := by
  induction lengths generalizing month place with
  | nil => cases h
  | cons length lengths ih =>
    rw [monthAt]
    by_cases first : place < length
    · refine ⟨0, Nat.zero_lt_succ _, ?_⟩
      rw [if_pos first]
      exact ⟨rfl, Nat.succ_le_succ (Nat.zero_le _), first⟩
    · rw [List.sum_cons] at h
      have later : place - length < lengths.sum := by omega
      obtain ⟨k, bound, found, least, most⟩ := ih (month + 1) later
      rw [if_neg first]
      exact ⟨k + 1, Nat.succ_lt_succ bound, by omega, least, most⟩

theorem sum_monthLengths (year : Nat) :
    (monthLengths year).sum = if isLeapYear year then 366 else 365 := by
  unfold monthLengths
  split <;> rfl

/-- Spans of four hundred years, a hundred, four, one, and days, which are `n` days together. A year
has a place 365 only if it ends four years, and then not the last four of a hundred, but for the last
hundred of four hundred. -/
structure Spans (n : Nat) where
  cycles : Nat
  hundreds : Nat
  fours : Nat
  ones : Nat
  days : Nat
  sum : n = 146097 * cycles + 36524 * hundreds + 1461 * fours + 365 * ones + days
  hundreds_le : hundreds ≤ 3
  fours_le : fours ≤ 24
  ones_le : ones ≤ 3
  days_le : days < 365 ∨ days = 365 ∧ ones = 3 ∧ (fours = 24 → hundreds = 3)

namespace Spans

variable {n : Nat}

def year (s : Spans n) : Nat :=
  400 * s.cycles + 100 * s.hundreds + 4 * s.fours + s.ones + 1

theorem year_le_iff (s : Spans n) : s.year ≤ 9999 ↔ n < lastNumber := by
  obtain ⟨a, b, c, d, e, sum, hb, hc, hd, he⟩ := s
  simp only [year, lastNumber]
  omega

theorem days_lt (s : Spans n) : s.days < (monthLengths s.year).sum := by
  rw [sum_monthLengths]
  rcases s.days_le with usual | ⟨last, ones, century⟩
  · split <;> omega
  · have leap : isLeapYear s.year = true := by
      have hb := s.hundreds_le
      have hc := s.fours_le
      simp only [isLeapYear, year, ones, Bool.and_eq_true, Bool.or_eq_true, bne_iff_ne, beq_iff_eq]
      omega
    rw [if_pos leap, last]
    exact Nat.lt_succ_self 365

end Spans

theorem spans_taken (n size : Nat) (h : 0 < size) :
    min 3 (n / size) ≤ 3 ∧ min 3 (n / size) * size ≤ n ∧
      (min 3 (n / size) = 3 ∨ n - min 3 (n / size) * size < size) := by
  refine ⟨Nat.min_le_left _ _, Nat.mul_le_of_le_div _ _ _ (Nat.min_le_right _ _), ?_⟩
  rcases Nat.le_total 3 (n / size) with many | few
  · exact .inl (Nat.min_eq_left many)
  · rw [Nat.min_eq_right few, Nat.mul_comm, ← Nat.mod_eq_sub]
    exact .inr (Nat.mod_lt n h)

theorem exists_spans (n : Nat) : ∃ s : Spans n,
    partsAt n = (s.year, monthAt 1 (monthLengths s.year) s.days) := by
  have h400 := Nat.mod_lt n (by decide : 0 < 146097)
  have h100 := spans_taken (n % 146097) 36524 (by decide)
  rw [partsAt]
  generalize rest : n % 146097 = r at h400 h100 ⊢
  generalize min 3 (r / 36524) = hundreds at h100 ⊢
  have h1 := spans_taken ((r - hundreds * 36524) % 1461) 365 (by decide)
  generalize rest' : (r - hundreds * 36524) % 1461 = q at h1 ⊢
  generalize min 3 (q / 365) = ones at h1 ⊢
  obtain ⟨s, year, days⟩ : ∃ s : Spans n,
      s.year = n / 146097 * 400 + hundreds * 100 + (r - hundreds * 36524) / 1461 * 4 + ones + 1 ∧
        s.days = q - ones * 365 := by
    refine ⟨⟨n / 146097, hundreds, (r - hundreds * 36524) / 1461, ones, q - ones * 365, ?_, ?_, ?_,
      ?_, ?_⟩, ?_, rfl⟩
    · omega
    · omega
    · omega
    · omega
    · omega
    · simp only [Spans.year]
      omega
  exact ⟨s, by rw [year, days]⟩

theorem isSome_of? (year month day : Nat) : (of? year month day).isSome = isDay year month day := by
  unfold of?
  split
  · next valid => rw [valid, Option.isSome_some]
  · next invalid => rw [Bool.eq_false_iff.2 invalid, Option.isSome_none]

theorem isSome_ofNumber? (n : Nat) :
    (ofNumber? n).isSome = true ↔ 1 ≤ n ∧ n ≤ lastNumber := by
  unfold ofNumber?
  split
  · next zero => simp [zero]
  · next positive =>
    obtain ⟨s, parts⟩ := exists_spans (n - 1)
    obtain ⟨k, bound, month, least, most⟩ := monthAt_of_lt 1 s.days_lt
    have inYears := s.year_le_iff
    have positiveYear : 1 ≤ s.year := Nat.succ_le_succ (Nat.zero_le _)
    have twelve : k < 12 := bound
    have day : isDay s.year (1 + k) (monthAt 1 (monthLengths s.year) s.days).2 =
        decide (s.year ≤ 9999) := by
      simp only [isDay, positiveYear, least, decide_true, Bool.true_and, Nat.le_add_right,
        Nat.add_sub_cancel_left, most, Bool.and_true, show 1 + k ≤ 12 by omega]
    rw [parts]
    dsimp only
    rw [isSome_of?, month, day, decide_eq_true_eq, inYears]
    omega

end Date

namespace Stamp

variable {s : Stamp}

/-- The microseconds of a stamp, rounded to whole ones, lie in the years 1 to 9999. -/
structure InYears (s : Stamp) : Prop where
  number : s.isNaN = false
  first : -62135596800000000 ≤ s.micros
  last : s.micros < 253402300800000000

theorem exists_civilAt {n : Int} (first : -62135596800 ≤ n) (last : n < 253402300800) :
    ∃ c, civilAt n = .ok c := by
  have seconds : Int.bmod n 0x10000000000000000 = n := by
    apply Int.bmod_eq_of_le <;> omega
  have years : Int.bmod ((Civil.ofSeconds n).year - 1900) 0x100000000 =
      (Civil.ofSeconds n).year - 1900 := by
    obtain ⟨span, parts⟩ := Date.exists_spans ((Civil.epochDay - 1 + n / 86400) % 146097).toNat
    have small : span.year ≤ 400 := by
      obtain ⟨a, b, c, d, e, sum, hb, hc, hd, he⟩ := span
      have cycles : a = 0 := by omega
      simp only [Date.Spans.year]
      omega
    have year : (Civil.ofSeconds n).year =
        (Civil.epochDay - 1 + n / 86400) / 146097 * 400 + span.year := by
      simp only [Civil.ofSeconds, parts]
    rw [year]
    generalize span.year = inCycle at small
    simp only [Civil.epochDay]
    apply Int.bmod_eq_of_le <;> omega
  rw [civilAt, if_neg (not_not.2 seconds), if_neg (not_not.2 years)]
  exact ⟨_, rfl⟩

theorem ofLocalMicros?_isSome (n : Int) (offset : Option Offset) :
    (DateTime.ofLocalMicros? (Civil.epochDay * dayLength + n) offset).isSome = true ↔
      -62135596800000000 ≤ n ∧ n < 253402300800000000 := by
  rw [DateTime.ofLocalMicros?, Option.isSome_map, Date.isSome_ofNumber?]
  simp only [Civil.epochDay, dayLength, Date.lastNumber]
  omega

theorem exists_dateTime_iff : (∃ time, s.dateTime = .ok time) ↔ s.InYears := by
  constructor
  · rintro ⟨time, made⟩
    rw [dateTime] at made
    split at made
    · cases made
    · next number =>
      obtain ⟨c, -, made⟩ := bind_eq_ok.1 made
      split at made
      · next found =>
        obtain ⟨first, last⟩ := (ofLocalMicros?_isSome _ _).1 (Option.isSome_iff_exists.2 ⟨_, found⟩)
        exact ⟨Bool.eq_false_iff.2 number, first, last⟩
      · cases made
  · rintro ⟨number, first, last⟩
    obtain ⟨c, second⟩ := exists_civilAt (n := s.micros / 1000000) (by omega) (by omega)
    obtain ⟨time, found⟩ := Option.isSome_iff_exists.1
      ((ofLocalMicros?_isSome s.micros (some .utc)).2 ⟨first, last⟩)
    refine ⟨time, ?_⟩
    rw [dateTime, if_neg (Bool.eq_false_iff.1 number), second, ok_bind, found]

end Stamp

end ShardVault
