import ShardVault.Proofs.Text.Digits
import ShardVault.Proofs.Text.Utf8
import ShardVault.Time.Reader

namespace ShardVault

def Offset.readBack (o : Offset) : Offset :=
  if o.micros.natAbs < 1000000 then .utc else o

def DateTime.readBack (t : DateTime) : DateTime :=
  { t with offset := t.offset.map Offset.readBack }

/-- The distance from universal time, if known, is one of whole seconds. -/
def DateTime.IsWhole (t : DateTime) : Prop :=
  ∀ o ∈ t.offset, o.micros % 1000000 = 0

theorem DateTime.IsWhole.readBack_eq {t : DateTime} (h : t.IsWhole) : t.readBack = t := by
  obtain ⟨date, time, offset⟩ := t
  cases offset with
  | none => rfl
  | some o =>
    have ho : o.readBack = o := by
      obtain ⟨micros, inDay⟩ := o
      have hm : micros % 1000000 = 0 := h _ rfl
      unfold Offset.readBack
      split
      · next hlt =>
        change micros.natAbs < 1000000 at hlt
        obtain rfl : micros = 0 := by omega
        rfl
      · rfl
    simp only [readBack, Option.map_some, ho]

def DateTime.epoch : DateTime :=
  ⟨⟨1970, 1, 1, by decide⟩, .midnight, some .utc⟩

theorem DateTime.isWhole_epoch : epoch.IsWhole := by
  intro o ho
  obtain rfl := Option.some.inj ho
  rfl

namespace DateTime.Reader

def spelled (width n : Nat) : Bytes := Utf8.encodeAll (Text.padded width n)

theorem spelled_eq (width n : Nat) :
    spelled width n = (Text.padded width n).map fun c ↦ UInt8.ofNat c.val :=
  Utf8.encodeAll_of_ascii (Text.isAscii_of_digits (Text.all_isAsciiDigit_padded width n))

theorem length_spelled {width n : Nat} (hw : 0 < width) (h : n < Nat.pow 10 width) :
    (spelled width n).length = width := by
  rw [spelled_eq, List.length_map, Text.length_padded hw h]

theorem digit_of_mem_spelled {width n : Nat} {b : UInt8} (h : b ∈ spelled width n) :
    48 ≤ b.toNat ∧ b.toNat ≤ 57 := by
  rw [spelled_eq, List.mem_map] at h
  obtain ⟨c, hc, rfl⟩ := h
  have hd := (CodePoint.isAsciiDigit_iff c).1 (Text.all_isAsciiDigit_padded width n c hc)
  rw [Utf8.toNat_byte (by omega)]
  exact hd

theorem digit?_ofDigit {c : CodePoint} (h : c.isAsciiDigit = true) :
    digit? (UInt8.ofNat c.val) = some c.asDigit := by
  have hd := (CodePoint.isAsciiDigit_iff c).1 h
  have hn := Utf8.toNat_byte (show c.val < 256 by omega)
  simp only [digit?, UInt8.le_iff_toNat_le, hn, Bool.and_eq_true, decide_eq_true_eq]
  rw [if_pos (by simpa using hd)]
  rfl

theorem mapM_digit? {t : Text} (h : ∀ c ∈ t, c.isAsciiDigit = true) :
    (t.map fun c ↦ UInt8.ofNat c.val).mapM digit? = some (t.map CodePoint.asDigit) := by
  induction t with
  | nil => rfl
  | cons c t ih =>
    rw [List.map_cons, List.mapM_cons, digit?_ofDigit (h c (by simp)),
      ih fun x hx ↦ h x (by simp [hx])]
    rfl

theorem number?_spelled {width n : Nat} (hw : 0 < width) (h : n < Nat.pow 10 width)
    (rest : Bytes) : number? width (spelled width n ++ rest) = some (n, rest) := by
  have hl := length_spelled hw h
  have hm := mapM_digit? (Text.all_isAsciiDigit_padded width n)
  rw [← spelled_eq] at hm
  simp only [number?, List.length_append, hl, List.take_left' hl, List.drop_left' hl, hm,
    Option.map_some, Text.ofDigits_padded]
  rw [if_neg (by omega)]

theorem next_spelled {width n : Nat} (hw : 0 < width) (h : n < Nat.pow 10 width) (rest : Bytes) :
    48 ≤ (next (spelled width n ++ rest)).toNat ∧
      (next (spelled width n ++ rest)).toNat ≤ 57 := by
  have hl := length_spelled hw h
  obtain ⟨b, bs, hb⟩ := List.exists_cons_of_length_pos (hl ▸ hw)
  have hmem : b ∈ spelled width n := by simp [hb]
  rw [hb]
  exact digit_of_mem_spelled hmem

theorem next_spelled_ne {width n : Nat} (hw : 0 < width) (h : n < Nat.pow 10 width)
    (rest : Bytes) {b : UInt8} (hb : b.toNat < 48 ∨ 57 < b.toNat) :
    next (spelled width n ++ rest) ≠ b := by
  have := next_spelled hw h rest
  rintro rfl
  omega

section

variable {h m s : Nat} (hh : h < 100) (hm : m < 100) (hs : s < 100) (rest : Bytes)
include hh hm

theorem parts?_minutes :
    parts? 3 none [] 5 (spelled 2 h ++ 58 :: (spelled 2 m ++ rest)) =
      some ⟨[h, m], 0, next rest != 0⟩ := by
  have nh := number?_spelled (by decide : 0 < 2) hh (58 :: (spelled 2 m ++ rest))
  have nm := number?_spelled (by decide : 0 < 2) hm rest
  simp [parts?, nh, nm, next]

include hs

theorem parts?_seconds :
    parts? 3 none [] 8 (spelled 2 h ++ 58 :: (spelled 2 m ++ 58 :: (spelled 2 s ++ rest))) =
      some ⟨[h, m, s], 0, next rest != 0⟩ := by
  have nh := number?_spelled (by decide : 0 < 2) hh
    (58 :: (spelled 2 m ++ 58 :: (spelled 2 s ++ rest)))
  have nm := number?_spelled (by decide : 0 < 2) hm (58 :: (spelled 2 s ++ rest))
  have ns := number?_spelled (by decide : 0 < 2) hs rest
  simp [parts?, nh, nm, ns, next]

theorem parts?_fraction {f : Nat} (hf : f < 1000000) :
    parts? 3 none [] 15 (spelled 2 h ++ 58 :: (spelled 2 m ++ 58 :: (spelled 2 s ++
      46 :: (spelled 6 f ++ rest)))) =
      some ⟨[h, m, s], f, next (rest.dropWhile fun b ↦ (digit? b).isSome) != 0⟩ := by
  have nh := number?_spelled (by decide : 0 < 2) hh
    (58 :: (spelled 2 m ++ 58 :: (spelled 2 s ++ 46 :: (spelled 6 f ++ rest))))
  have nm := number?_spelled (by decide : 0 < 2) hm
    (58 :: (spelled 2 s ++ 46 :: (spelled 6 f ++ rest)))
  have ns := number?_spelled (by decide : 0 < 2) hs (46 :: (spelled 6 f ++ rest))
  have nf := number?_spelled (by decide : 0 < 6) hf rest
  simp [parts?, fraction?, nh, nm, ns, nf, next]

end

theorem encodeAll_mark {mark : Char} (h : mark.toNat < 128) (t : Text) :
    Utf8.encodeAll (CodePoint.ofChar mark :: t) = UInt8.ofNat mark.toNat :: Utf8.encodeAll t := by
  simp [Utf8.encodeAll, Utf8.encodePoint, CodePoint.val_ofChar, h]

theorem encodeAll_date (d : Date) : Utf8.encodeAll d.shown =
    spelled 4 d.year ++ 45 :: (spelled 2 d.month ++ 45 :: spelled 2 d.day) := by
  have dash : (("-" : String) : Text) = [CodePoint.ofChar '-'] := rfl
  simp only [Date.shown, dash, List.append_assoc, Utf8.encodeAll_append, List.singleton_append,
    encodeAll_mark (show '-'.toNat < 128 by decide)]
  rfl

def fractionBytes (micro : Nat) : Bytes :=
  if micro = 0 then [] else 46 :: spelled 6 micro

theorem encodeAll_time (t : TimeOfDay) : Utf8.encodeAll t.shown =
    spelled 2 t.hour ++ 58 :: (spelled 2 t.minute ++ 58 ::
      (spelled 2 t.second ++ fractionBytes t.micro)) := by
  have colon : ((":" : String) : Text) = [CodePoint.ofChar ':'] := rfl
  have point : (("." : String) : Text) = [CodePoint.ofChar '.'] := rfl
  have fraction : Utf8.encodeAll (if t.micro.val = 0 then ([] : Text) else
      "." ++ Text.padded 6 t.micro) = fractionBytes t.micro := by
    unfold fractionBytes
    split
    · rfl
    · rw [point, List.singleton_append, encodeAll_mark (by decide)]
      rfl
  simp only [TimeOfDay.shown, TimeOfDay.shownToSecond, colon, List.append_assoc,
    Utf8.encodeAll_append, List.singleton_append, encodeAll_mark (show ':'.toNat < 128 by decide), fraction]
  rfl

theorem monthLengths_lt (year place : Nat) : (monthLengths year).getD place 0 < 100 := by
  have lengths : ∀ n ∈ monthLengths year, n < 100 := by
    simp only [monthLengths, List.mem_cons, List.not_mem_nil, or_false, forall_eq_or_imp,
      forall_eq]
    split <;> decide
  rw [List.getD_eq_getElem?_getD]
  cases h : (monthLengths year)[place]? with
  | none => decide
  | some n => exact lengths n (List.mem_of_getElem? h)

theorem parts_lt (d : Date) :
    d.year < Nat.pow 10 4 ∧ d.month < Nat.pow 10 2 ∧ d.day < Nat.pow 10 2 := by
  have hv := d.valid
  simp only [isDay, Bool.and_eq_true, decide_eq_true_eq] at hv
  exact ⟨Nat.lt_of_le_of_lt hv.1.1.1.1.2 (by decide), Nat.lt_of_le_of_lt hv.1.1.2 (by decide),
    Nat.lt_of_le_of_lt hv.2 (monthLengths_lt d.year _)⟩

theorem date?_spelled (d : Date) (rest : Bytes) :
    date? 10 (spelled 4 d.year ++ 45 :: (spelled 2 d.month ++ 45 :: (spelled 2 d.day ++ rest))) =
      some d := by
  obtain ⟨hyear, hmonth, hday⟩ := parts_lt d
  have ny := number?_spelled (by decide : 0 < 4) hyear
    (45 :: (spelled 2 d.month ++ 45 :: (spelled 2 d.day ++ rest)))
  have nm := number?_spelled (by decide : 0 < 2) hmonth (45 :: (spelled 2 d.day ++ rest))
  have nd := number?_spelled (by decide : 0 < 2) hday rest
  have notWeek := next_spelled_ne (by decide : 0 < 2) hmonth
    (45 :: (spelled 2 d.day ++ rest)) (b := 87) (by decide)
  have ly := length_spelled (by decide : 0 < 4) hyear
  have lm := length_spelled (by decide : 0 < 2) hmonth
  have ld := length_spelled (by decide : 0 < 2) hday
  have dash : ∀ bs : Bytes, next (45 :: bs) = 45 := fun _ ↦ rfl
  simp [date?, ny, nm, nd, dash, notWeek, ly, lm, ld, Date.of?, d.valid]
  omega

/-- The bytes of the seconds of a distance, none if there are only whole minutes. -/
def secondBytes (micros : Nat) : Bytes :=
  if micros % 60000000 = 0 then []
  else 58 :: (spelled 2 (micros / 1000000 % 60) ++ fractionBytes (micros % 1000000))

def distanceBytes (micros : Nat) : Bytes :=
  spelled 2 (micros / 1000000 / 3600) ++ 58 ::
    (spelled 2 (micros / 1000000 / 60 % 60) ++ secondBytes micros)

theorem encodeAll_offset (o : Offset) : Utf8.encodeAll o.shown =
    (if o.micros < 0 then 45 else 43) :: distanceBytes o.micros.natAbs := by
  have colon : ((":" : String) : Text) = [CodePoint.ofChar ':'] := rfl
  have point : (("." : String) : Text) = [CodePoint.ofChar '.'] := rfl
  have minus : (("-" : String) : Text) = [CodePoint.ofChar '-'] := rfl
  have plus : (("+" : String) : Text) = [CodePoint.ofChar '+'] := rfl
  have sign : ∀ t, Utf8.encodeAll ((if o.micros < 0 then "-" else "+" : Text) ++ t) =
      (if o.micros < 0 then 45 else 43) :: Utf8.encodeAll t := by
    intro t
    split
    · rw [minus, List.singleton_append, encodeAll_mark (by decide)]
      rfl
    · rw [plus, List.singleton_append, encodeAll_mark (by decide)]
      rfl
  have tail : Utf8.encodeAll ((if o.micros.natAbs % 60000000 = 0 then ([] : Text) else
        [CodePoint.ofChar ':'] ++ Text.padded 2 (o.micros.natAbs / 1000000 / 1 % 60)) ++
      (if o.micros.natAbs % 1000000 = 0 then ([] : Text) else
        "." ++ Text.padded 6 (o.micros.natAbs % 1000000))) = secondBytes o.micros.natAbs := by
    unfold secondBytes fractionBytes
    by_cases h : o.micros.natAbs % 60000000 = 0
    · rw [if_pos h, if_pos (by omega), if_pos h]
      rfl
    · rw [if_neg h, if_neg h, List.append_assoc, List.singleton_append,
        encodeAll_mark (by decide), Nat.div_one, Utf8.encodeAll_append]
      by_cases hf : o.micros.natAbs % 1000000 = 0
      · rw [if_pos hf, if_pos hf]
        rfl
      · rw [if_neg hf, if_neg hf, point, List.singleton_append, encodeAll_mark (by decide)]
        rfl
  simp only [Offset.shown, List.append_assoc, sign]
  rw [Utf8.encodeAll_append, colon, List.singleton_append, encodeAll_mark (by decide),
    Utf8.encodeAll_append, tail]
  rfl

theorem Offset.of?_micros (o : Offset) : Offset.of? o.micros = some o := by
  simp [Offset.of?, o.inDay]

theorem parts?_clock {h m s f : Nat} (hh : h < 100) (hm : m < 100) (hs : s < 100)
    (hf : f < 1000000) (rest : Bytes) :
    ∃ leftOver, parts? 3 none []
      (spelled 2 h ++ 58 :: (spelled 2 m ++ 58 :: (spelled 2 s ++ fractionBytes f))).length
      (spelled 2 h ++ 58 :: (spelled 2 m ++ 58 :: (spelled 2 s ++ (fractionBytes f ++ rest)))) =
        some ⟨[h, m, s], f, leftOver⟩ ∧ (rest = [] → leftOver = false) := by
  have lh := length_spelled (by decide : 0 < 2) hh
  have lm := length_spelled (by decide : 0 < 2) hm
  have ls := length_spelled (by decide : 0 < 2) hs
  unfold fractionBytes
  split
  · next hz =>
    subst hz
    refine ⟨next rest != 0, ?_, fun h ↦ h ▸ rfl⟩
    have hp := parts?_seconds hh hm hs rest
    simpa [lh, lm, ls] using hp
  · have lf := length_spelled (by decide : 0 < 6) hf
    refine ⟨next (rest.dropWhile fun b ↦ (digit? b).isSome) != 0, ?_, fun h ↦ h ▸ rfl⟩
    have hp := parts?_fraction hh hm hs rest hf
    simpa [lh, lm, ls, lf] using hp

theorem offset?_of_parts {o : Offset} {bs : Bytes} {p : Parts}
    (hp : parts? 3 none [] bs.length bs = some p) (hleft : p.leftOver = false)
    (hs : p.seconds = o.micros.natAbs / 1000000) (hm : p.micro = o.micros.natAbs % 1000000) :
    offset? (decide (o.micros < 0)) bs = some o.readBack := by
  simp only [offset?, hp, hleft, hs, hm, Option.bind_eq_bind, Option.bind_some,
    Bool.false_eq_true, if_false, Offset.readBack, decide_eq_true_eq]
  by_cases hz : o.micros.natAbs < 1000000
  · rw [if_pos (by omega), if_pos hz]
  · have hmicros : (if o.micros < 0 then -((o.micros.natAbs / 1000000 : Nat) * 1000000 +
        (o.micros.natAbs % 1000000 : Nat) : Int) else (o.micros.natAbs / 1000000 : Nat) *
        1000000 + (o.micros.natAbs % 1000000 : Nat)) = o.micros := by
      split <;> omega
    rw [if_neg (by omega), if_neg hz, hmicros]
    exact Offset.of?_micros o

theorem offset?_distanceBytes (o : Offset) :
    offset? (decide (o.micros < 0)) (distanceBytes o.micros.natAbs) = some o.readBack := by
  have hday := o.inDay
  simp only [dayLength] at hday
  have hh : o.micros.natAbs / 1000000 / 3600 < 100 := by omega
  have hm : o.micros.natAbs / 1000000 / 60 % 60 < 100 := by omega
  have hs : o.micros.natAbs / 1000000 % 60 < 100 := by omega
  unfold distanceBytes secondBytes
  split
  · have lh := length_spelled (by decide : 0 < 2) hh
    have lm := length_spelled (by decide : 0 < 2) hm
    have hp := parts?_minutes hh hm []
    refine offset?_of_parts ?_ rfl ?_ ?_ (p := ⟨[o.micros.natAbs / 1000000 / 3600,
      o.micros.natAbs / 1000000 / 60 % 60], 0, false⟩)
    · simpa [lh, lm, next] using hp
    · simp only [Parts.seconds, List.getD_cons_zero, List.getD_cons_succ, List.getD_nil]
      omega
    · simp only
      omega
  · obtain ⟨leftOver, hp, hleft⟩ := parts?_clock hh hm hs
      (show o.micros.natAbs % 1000000 < 1000000 by omega) []
    rw [List.append_nil] at hp
    refine offset?_of_parts hp (hleft rfl) ?_ rfl
    simp only [Parts.seconds, List.getD_cons_zero, List.getD_cons_succ]
    omega

def timeBytes (t : TimeOfDay) : Bytes :=
  spelled 2 t.hour ++ 58 :: (spelled 2 t.minute ++ 58 ::
    (spelled 2 t.second ++ fractionBytes t.micro))

theorem startsOffset_of_mem_timeBytes (t : TimeOfDay) :
    ∀ b ∈ timeBytes t, startsOffset b = false := by
  have digit : ∀ {width n : Nat} {b : UInt8}, b ∈ spelled width n → startsOffset b = false := by
    intro width n b hb
    have h := digit_of_mem_spelled hb
    simp only [startsOffset, Bool.or_eq_false_iff, beq_eq_false_iff_ne]
    refine ⟨⟨?_, ?_⟩, ?_⟩ <;> (rintro rfl; revert h; decide)
  have fraction : ∀ b ∈ fractionBytes t.micro, startsOffset b = false := by
    intro b hb
    unfold fractionBytes at hb
    split at hb
    · cases hb
    · rcases List.mem_cons.1 hb with rfl | hb
      · rfl
      · exact digit hb
  intro b hb
  simp only [timeBytes, List.mem_append, List.mem_cons] at hb
  rcases hb with hb | rfl | hb | rfl | hb | hb
  · exact digit hb
  · rfl
  · exact digit hb
  · rfl
  · exact digit hb
  · exact fraction b hb

theorem takeWhile_timeBytes (t : TimeOfDay) {rest : Bytes}
    (hr : ∀ b ∈ rest.head?, startsOffset b = true) :
    (timeBytes t ++ rest).takeWhile (fun b ↦ !startsOffset b) = timeBytes t := by
  rw [List.takeWhile_append_of_pos fun b hb ↦ by
    rw [startsOffset_of_mem_timeBytes t b hb]
    rfl]
  cases rest with
  | nil => simp
  | cons b rest => simp [hr b rfl]

theorem TimeOfDay.of?_self (t : TimeOfDay) :
    TimeOfDay.of? t.hour t.minute t.second t.micro = some t := by
  simp [TimeOfDay.of?, t.hour.isLt, t.minute.isLt, t.second.isLt, t.micro.isLt]

theorem parts?_timeBytes (t : TimeOfDay) (rest : Bytes) :
    ∃ leftOver, parts? 3 none [] (timeBytes t).length (timeBytes t ++ rest) =
      some ⟨[t.hour, t.minute, t.second], t.micro, leftOver⟩ ∧ (rest = [] → leftOver = false) := by
  obtain ⟨leftOver, hp, hleft⟩ := parts?_clock (h := t.hour) (m := t.minute) (s := t.second)
    (Nat.lt_trans t.hour.isLt (by decide)) (Nat.lt_trans t.minute.isLt (by decide))
    (Nat.lt_trans t.second.isLt (by decide)) t.micro.isLt rest
  refine ⟨leftOver, ?_, hleft⟩
  rw [← hp]
  simp [timeBytes]

theorem time?_timeBytes (t : TimeOfDay) (offset : Option Offset) :
    time? (timeBytes t ++ (offset.map fun o ↦ Utf8.encodeAll o.shown).getD []) =
      some (t, offset.map Offset.readBack) := by
  have hnonempty : ∀ rest : Bytes, (timeBytes t ++ rest).isEmpty = false := by
    intro rest
    simp [timeBytes]
  cases offset with
  | none =>
    obtain ⟨leftOver, hp, hleft⟩ := parts?_timeBytes t []
    have htake : (timeBytes t ++ []).takeWhile (fun b ↦ !startsOffset b) = timeBytes t :=
      takeWhile_timeBytes t (by simp)
    simp only [Option.map_none, Option.getD_none, time?, hnonempty, htake, hp, Bool.false_eq_true,
      if_false, Option.bind_eq_bind, Option.bind_some, List.getD_cons_zero, List.getD_cons_succ,
      TimeOfDay.of?_self, List.drop_left' rfl, hleft rfl]
  | some o =>
    have hbytes := encodeAll_offset o
    have hstart : ∀ b ∈ (Utf8.encodeAll o.shown).head?, startsOffset b = true := by
      rw [hbytes]
      rintro b ⟨⟩
      split <;> rfl
    obtain ⟨leftOver, hp, -⟩ := parts?_timeBytes t (Utf8.encodeAll o.shown)
    have htake := takeWhile_timeBytes t hstart
    have hoffset := offset?_distanceBytes o
    have hutc : ((if o.micros < 0 then 45 else 43 : UInt8) == 90) = false := by split <;> rfl
    have hsign : ((if o.micros < 0 then 45 else 43 : UInt8) == 45) = decide (o.micros < 0) := by
      by_cases h : o.micros < 0 <;> simp [h]
    simp only [Option.map_some, Option.getD_some, time?, hnonempty, htake, hp, Bool.false_eq_true,
      if_false, Option.bind_eq_bind, Option.bind_some, List.getD_cons_zero, List.getD_cons_succ,
      TimeOfDay.of?_self, List.drop_left' rfl]
    simp only [hbytes, hutc, hsign, hoffset, Bool.false_eq_true, if_false, Option.map_some]

end DateTime.Reader

namespace DateTime

open Reader

/-- The bytes of a point in time: its date, a `T`, its time of day and its distance if known. -/
theorem encodeAll_shown (t : DateTime) : Utf8.encodeAll t.shown =
    spelled 4 t.date.year ++ 45 :: (spelled 2 t.date.month ++ 45 :: (spelled 2 t.date.day ++
      84 :: (timeBytes t.time ++ (t.offset.map fun o ↦ Utf8.encodeAll o.shown).getD []))) := by
  have mark : (("T" : String) : Text) = [CodePoint.ofChar 'T'] := rfl
  have offset : Utf8.encodeAll ((t.offset.map Offset.shown).getD []) =
      (t.offset.map fun o ↦ Utf8.encodeAll o.shown).getD [] := by
    cases t.offset <;> rfl
  simp only [shown, mark, List.append_assoc, Utf8.encodeAll_append,
    encodeAll_mark (show 'T'.toNat < 128 by decide), encodeAll_date, List.cons_append, offset]
  rw [encodeAll_time]
  rfl

theorem val_lt_of_mem_padded (width n : Nat) : ∀ c ∈ Text.padded width n, c.val < 59 := by
  intro c hc
  have := (CodePoint.isAsciiDigit_iff c).1 (Text.all_isAsciiDigit_padded width n c hc)
  omega

theorem val_lt_of_mem_date (d : Date) : ∀ c ∈ d.shown, c.val < 59 := by
  simp only [Date.shown, List.forall_mem_append, and_assoc]
  exact ⟨val_lt_of_mem_padded _ _, Text.val_lt_ofString rfl, val_lt_of_mem_padded _ _, Text.val_lt_ofString rfl,
    val_lt_of_mem_padded _ _⟩

theorem val_lt_of_mem_time (t : TimeOfDay) : ∀ c ∈ t.shown, c.val < 59 := by
  simp only [TimeOfDay.shown, TimeOfDay.shownToSecond, List.forall_mem_append, and_assoc]
  refine ⟨val_lt_of_mem_padded _ _, Text.val_lt_ofString rfl, val_lt_of_mem_padded _ _, Text.val_lt_ofString rfl,
    val_lt_of_mem_padded _ _, ?_⟩
  split
  · exact nofun
  · exact List.forall_mem_append.2 ⟨Text.val_lt_ofString rfl, val_lt_of_mem_padded _ _⟩

theorem val_lt_of_mem_offset (o : Offset) : ∀ c ∈ o.shown, c.val < 59 := by
  simp only [Offset.shown, List.forall_mem_append, and_assoc]
  refine ⟨?_, val_lt_of_mem_padded _ _, Text.val_lt_ofString rfl, val_lt_of_mem_padded _ _, ?_, ?_⟩
  · split <;> exact Text.val_lt_ofString rfl
  · split
    · exact nofun
    · exact List.forall_mem_append.2 ⟨Text.val_lt_ofString rfl, val_lt_of_mem_padded _ _⟩
  · split
    · exact nofun
    · exact List.forall_mem_append.2 ⟨Text.val_lt_ofString rfl, val_lt_of_mem_padded _ _⟩

def afterDate (t : DateTime) : Text :=
  t.time.shown ++ (t.offset.map Offset.shown).getD []

theorem val_lt_of_mem_afterDate (t : DateTime) : ∀ c ∈ t.afterDate, c.val < 59 := by
  refine List.forall_mem_append.2 ⟨val_lt_of_mem_time t.time, ?_⟩
  cases t.offset with
  | none => exact nofun
  | some o => exact val_lt_of_mem_offset o

theorem shown_eq (t : DateTime) :
    t.shown = t.date.shown ++ CodePoint.ofChar 'T' :: t.afterDate := by
  simp only [shown, afterDate, List.append_assoc]
  rfl

theorem isAscii_shown (t : DateTime) : ∀ c ∈ t.shown, c.val < 0x80 := by
  rw [shown_eq, List.forall_mem_append, List.forall_mem_cons]
  exact ⟨fun c hc ↦ Nat.lt_trans (val_lt_of_mem_date t.date c hc) (by decide), by decide,
    fun c hc ↦ Nat.lt_trans (val_lt_of_mem_afterDate t c hc) (by decide)⟩

theorem isScalar_shown (t : DateTime) : t.shown.isScalar = true :=
  Text.isScalar_of_ascii (isAscii_shown t)

theorem withSeparator_of_isScalar {t : Text} (h : t.isScalar = true) : withSeparator t = t := by
  have none : [7, 8, 10].find? (fun i ↦ (t[i]?.map CodePoint.isSurrogate).getD false) = none := by
    rw [List.find?_eq_none]
    intro i _
    cases hi : t[i]? with
    | none => simp
    | some c =>
      have hc := List.all_eq_true.1 h c (List.mem_of_getElem? hi)
      simpa using hc
  rw [withSeparator, none]

theorem stop?_dashes {year month rest : Bytes} (hy : year.length = 4) (hm : next (month ++ rest) ≠ 87)
    (hr : 2 < rest.length) (hmonth : 0 < month.length) :
    stop? (year ++ 45 :: (month ++ rest)) = some 10 := by
  have dash : (year ++ 45 :: (month ++ rest)).getD 4 0 = 45 := by
    simp [List.getD_eq_getElem?_getD, hy]
  have week : (year ++ 45 :: (month ++ rest)).getD 5 0 = next (month ++ rest) := by
    rw [List.getD_eq_getElem?_getD, List.getElem?_append_right (by omega), hy]
    cases month ++ rest <;> rfl
  have size : (year ++ 45 :: (month ++ rest)).length ≠ 7 := by
    simp only [List.length_append, List.length_cons]
    omega
  simp only [stop?, size, dash, week, if_false, beq_self_eq_true, if_true, beq_eq_false_iff_ne.2 hm,
    Bool.false_eq_true]

theorem ofText?_shown (t : DateTime) : ofText? t.shown = some t.readBack := by
  obtain ⟨hyear, hmonth, hday⟩ := parts_lt t.date
  have ly := length_spelled (by decide : 0 < 4) hyear
  have lm := length_spelled (by decide : 0 < 2) hmonth
  have ld := length_spelled (by decide : 0 < 2) hday
  have hbytes := encodeAll_shown t
  generalize hoffset : (t.offset.map fun o ↦ Utf8.encodeAll o.shown).getD [] = offset at hbytes
  have htime := time?_timeBytes t.time t.offset
  rw [hoffset] at htime
  have hrest : 2 < (45 :: (spelled 2 t.date.day ++ 84 :: (timeBytes t.time ++ offset))).length := by
    rw [List.length_cons, List.length_append, ld]
    omega
  have hstop : stop? (spelled 4 t.date.year ++ 45 :: (spelled 2 t.date.month ++
      45 :: (spelled 2 t.date.day ++ 84 :: (timeBytes t.time ++ offset)))) = some 10 :=
    stop?_dashes ly (next_spelled_ne (by decide) hmonth _ (by decide)) hrest (by omega)
  have hdate := date?_spelled t.date (84 :: (timeBytes t.time ++ offset))
  rw [← hbytes] at hstop hdate
  have hlength : 11 < (Utf8.encodeAll t.shown).length := by
    rw [hbytes]
    simp [ly, lm, ld, timeBytes]
    omega
  have hshown : ¬ t.shown.length < 7 := by
    rw [Utf8.encodeAll_of_ascii (isAscii_shown t), List.length_map] at hlength
    omega
  have hmark : (Utf8.encodeAll t.shown).getD 10 0 = 84 := by
    rw [hbytes]
    simp [List.getD_eq_getElem?_getD, List.getElem?_append_right, ly, lm, ld]
  have hdrop : (Utf8.encodeAll t.shown).drop 11 = timeBytes t.time ++ offset := by
    rw [hbytes]
    simp [List.drop_append, List.drop_of_length_le, ly, lm, ld]
  simp only [ofText?, hshown, if_false, withSeparator_of_isScalar (isScalar_shown t), Utf8.encode,
    isScalar_shown t, if_true, Option.bind_eq_bind, Option.bind_some, hstop, hdate, hmark]
  rw [if_pos (by omega), show width 84 = 1 from rfl, hdrop, htime]
  rfl

theorem Reader.readBack_of_offset? {negative : Bool} {bs : Bytes} {o : Offset}
    (h : offset? negative bs = some o) : o.readBack = o := by
  obtain ⟨p, -, h⟩ := Option.bind_eq_some_iff.1 h
  split at h
  · cases h
  split at h
  · exact Option.some.inj h ▸ rfl
  · next second =>
    obtain ⟨inDay, found⟩ := Option.dite_none_right_eq_some.1 h
    rw [← Option.some.inj found, Offset.readBack, if_neg]
    change ¬ (if negative then -_ else _ : Int).natAbs < 1000000
    split <;> omega

theorem Reader.readBack_of_time? {bs : Bytes} {time : TimeOfDay} {offset : Option Offset}
    (h : time? bs = some (time, offset)) : offset.map Offset.readBack = offset := by
  obtain ⟨p, -, h⟩ := Option.bind_eq_some_iff.1 h
  obtain ⟨found, -, h⟩ := Option.bind_eq_some_iff.1 h
  split at h
  · obtain ⟨-, h⟩ := Option.ite_none_left_eq_some.1 h
    rw [← (Prod.mk.inj (Option.some.inj h)).2, Option.map_none]
  split at h
  · obtain ⟨-, h⟩ := Option.ite_none_right_eq_some.1 h
    rw [← (Prod.mk.inj (Option.some.inj h)).2]
    rfl
  · obtain ⟨o, ho, h⟩ := Option.map_eq_some_iff.1 h
    rw [← (Prod.mk.inj h).2, Option.map_some, readBack_of_offset? ho]

theorem readBack_of_ofText? {t : Text} {time : DateTime} (h : ofText? t = some time) :
    time.readBack = time := by
  obtain ⟨-, h⟩ := Option.ite_none_left_eq_some.1 h
  obtain ⟨bs, -, h⟩ := Option.bind_eq_some_iff.1 h
  obtain ⟨stop, -, h⟩ := Option.bind_eq_some_iff.1 h
  obtain ⟨date, -, h⟩ := Option.bind_eq_some_iff.1 h
  split at h
  · obtain ⟨⟨clock, offset⟩, found, h⟩ := Option.bind_eq_some_iff.1 h
    obtain rfl := Option.some.inj h
    rw [readBack, Reader.readBack_of_time? found]
  · obtain rfl := Option.some.inj h
    rfl

end DateTime

end ShardVault
