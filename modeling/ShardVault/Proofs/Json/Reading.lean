import ShardVault.Json.Fields
import ShardVault.Proofs.Json.Plain

namespace ShardVault

theorem CodePoint.not_isLow {c : CodePoint} (h : c.isSurrogate = false) : ¬ c.IsLow := by
  simp only [isSurrogate, Bool.and_eq_false_iff, decide_eq_false_iff_not] at h
  unfold IsLow
  omega

theorem Numeral.ofDigits_lt {ds : List Nat} (h : ∀ d ∈ ds, d < 10) :
    ofDigits ds < Nat.pow 10 ds.length := by
  induction ds using List.reverseRecOn with
  | nil => exact Nat.one_pos
  | append_singleton ds d ih =>
    have last := h d (by simp)
    have front := ih fun x hx ↦ h x (by simp [hx])
    have power : Nat.pow 10 (ds ++ [d]).length = Nat.pow 10 ds.length * 10 := by
      rw [List.length_append]
      rfl
    rw [ofDigits_append_one, power]
    omega

theorem Numeral.ofDigits_lt_of_length_le {ds : List Nat} (h : ∀ d ∈ ds, d < 10) {limit : Nat}
    (hl : ds.length ≤ limit) : ofDigits ds < Nat.pow 10 limit :=
  Nat.lt_of_lt_of_le (ofDigits_lt h) (Nat.pow_le_pow_right (by decide) hl)

theorem Entries.mem_put {α : Type} {entries : Entries α} {key : Text} {value : α} {p : Text × α}
    (h : p ∈ entries.put key value) : p = (key, value) ∨ p ∈ entries := by
  unfold put at h
  split at h
  · obtain ⟨q, hq, rfl⟩ := List.mem_map.1 h
    split
    · exact .inl rfl
    · exact .inr hq
  · exact (List.mem_append.1 h).symm.imp_left List.mem_singleton.1

theorem Entries.mem_of_get? {α : Type} {entries : Entries α} {key : Text} {value : α}
    (h : entries.get? key = some value) : (key, value) ∈ entries := by
  obtain ⟨before, after, he, -⟩ := List.lookup_eq_some_iff.1 h
  exact he ▸ by simp

theorem Text.isScalar_of_suffix {s t : Text} (h : s <:+ t) (ht : t.isScalar = true) :
    s.isScalar = true :=
  List.all_eq_true.2 fun c hc ↦ List.all_eq_true.1 ht c (h.subset hc)

namespace Json

variable {t rest : Text} {n : Nat} {p : CodePoint}

theorem unit?_eq_some (h : unit? t = some (n, rest)) : n < 0x10000 ∧ rest <:+ t := by
  match t, h with
  | a :: b :: c :: d :: tail, h =>
    simp only [unit?, Option.bind_eq_bind, Option.bind_eq_some_iff, Option.some.injEq,
      Prod.mk.injEq] at h
    obtain ⟨a', ha, b', hb, c', hc, d', hd, rfl, rfl⟩ := h
    have := CodePoint.hexValue?_lt ha
    have := CodePoint.hexValue?_lt hb
    have := CodePoint.hexValue?_lt hc
    have := CodePoint.hexValue?_lt hd
    exact ⟨by omega, [a, b, c, d], rfl⟩

theorem unitEscape?_eq_some (h : unitEscape? t = some (n, rest)) : n < 0x10000 ∧ rest <:+ t := by
  cases t with
  | nil => cases h
  | cons u t =>
    rw [unitEscape?] at h
    split at h
    · exact (unit?_eq_some h).imp_right fun suffix ↦ suffix.trans (List.suffix_cons u t)
    · cases h

theorem lowHalf?_eq_some (h : lowHalf? t = some (n, rest)) :
    n < 0x10000 ∧ n / 0x400 = 0x37 ∧ rest <:+ t := by
  cases t with
  | nil => cases h
  | cons c t =>
    rw [lowHalf?] at h
    split at h
    · split at h
      · next low tail hlow =>
        split at h
        · next half =>
          obtain ⟨rfl, rfl⟩ := Prod.mk.inj (Option.some.inj h)
          obtain ⟨small, suffix⟩ := unitEscape?_eq_some hlow
          exact ⟨small, half, suffix.trans (List.suffix_cons c t)⟩
        · cases h
      · cases h
    · cases h

theorem shortEscape?_eq_some {letter : CodePoint} (h : shortEscape? letter = some p) :
    p.isSurrogate = false := by
  have meanings : ∀ q ∈ [('"', '"'), ('\\', '\\'), ('/', '/'), ('b', '\x08'), ('f', '\x0c'),
      ('n', '\n'), ('r', '\r'), ('t', '\t')], (CodePoint.ofChar q.2).isSurrogate = false := by decide
  obtain ⟨⟨other, meant⟩, hq, h⟩ := List.exists_of_findSome?_eq_some h
  obtain ⟨-, h⟩ := Option.ite_none_right_eq_some.1 h
  exact Option.some.inj h ▸ meanings _ hq

/-- What an escape gives: a first half of a pair only if no second one follows, and a second half
only if it could have completed a pair. -/
theorem escape?_eq_some (h : escape? t = some (p, rest)) :
    rest <:+ t ∧ (p.IsHigh → lowHalf? rest = none) ∧
      (p.IsLow → lowHalf? (CodePoint.ofChar '\\' :: t) ≠ none) := by
  rw [escape?.eq_def] at h
  split at h
  · next high tail hunit =>
    obtain ⟨small, suffix⟩ := unitEscape?_eq_some hunit
    have val : (CodePoint.ofNat high).val = high := CodePoint.val_ofNat (by omega)
    split at h
    · next isHigh =>
      split at h
      · next low tail' hlow =>
        obtain ⟨rfl, rfl⟩ := Prod.mk.inj (Option.some.inj h)
        obtain ⟨lowSmall, isLow, suffix'⟩ := lowHalf?_eq_some hlow
        have joined : (CodePoint.ofNat (0x10000 + (high - 0xD800) * 0x400 + (low - 0xDC00))).val =
          0x10000 + (high - 0xD800) * 0x400 + (low - 0xDC00) := CodePoint.val_ofNat (by omega)
        refine ⟨suffix'.trans suffix, ?_, ?_⟩
        · intro half
          rw [CodePoint.IsHigh, joined] at half
          omega
        · intro half
          rw [CodePoint.IsLow, joined] at half
          omega
      · next alone =>
        obtain ⟨rfl, rfl⟩ := Prod.mk.inj (Option.some.inj h)
        refine ⟨suffix, fun _ ↦ alone, ?_⟩
        intro half
        rw [CodePoint.IsLow, val] at half
        omega
    · next other =>
      obtain ⟨rfl, rfl⟩ := Prod.mk.inj (Option.some.inj h)
      refine ⟨suffix, ?_, ?_⟩
      · intro half
        rw [CodePoint.IsHigh, val] at half
        exact absurd half other
      · intro half
        rw [CodePoint.IsLow, val] at half
        rw [lowHalf?, if_pos rfl, hunit]
        simp only [if_pos half]
        exact Option.some_ne_none _
  · split at h
    · next c tail =>
      obtain ⟨p', hshort, he⟩ := Option.map_eq_some_iff.1 h
      obtain ⟨rfl, rfl⟩ := Prod.mk.inj he
      have scalar := shortEscape?_eq_some hshort
      exact ⟨List.suffix_cons _ _, fun half ↦ absurd half (CodePoint.not_isHigh scalar),
        fun half ↦ absurd half (CodePoint.not_isLow scalar)⟩
    · cases h

/-- A string is read without pairs; `done` is the text so far, the last code point first, and what
follows it does not complete a pair. -/
theorem readString_eq_ok {done s : Text} {fuel : Nat} (ht : t.isScalar = true)
    (hd : done.IsChain fun b a ↦ a.IsHigh → ¬ b.IsLow)
    (follows : ∀ a ∈ done.head?, a.IsHigh → lowHalf? t = none)
    (h : readString done fuel t = .ok (s, rest)) : s.Unpaired ∧ rest.isScalar = true := by
  induction fuel generalizing done t with
  | zero => rw [readString] at h; cases h
  | succ fuel ih =>
    cases t with
    | nil => cases h
    | cons c t =>
      rw [Text.isScalar_cons, Bool.and_eq_true, Bool.not_eq_true'] at ht
      rw [readString] at h
      split at h
      · obtain ⟨rfl, rfl⟩ := Prod.mk.inj (Except.ok.inj h)
        exact ⟨List.isChain_reverse.2 hd, ht.2⟩
      split at h
      · next hc =>
        split at h
        · next p tail hescape =>
          obtain ⟨suffix, first, second⟩ := escape?_eq_some hescape
          -- After a first half no second one could follow, or the two had been read as one.
          refine ih (Text.isScalar_of_suffix suffix ht.2) (List.isChain_cons.2 ⟨?_, hd⟩) ?_ h
          · intro a ha high low
            exact second low (hc ▸ follows a ha high)
          · intro a ha high
            obtain rfl := Option.some.inj ha
            exact first high
        · cases h
      split at h
      · cases h
      · refine ih ht.2 (List.isChain_cons.2 ⟨?_, hd⟩) ?_ h
        · intro a _ _
          exact CodePoint.not_isLow ht.1
        · intro a ha high
          obtain rfl := Option.some.inj ha
          exact absurd high (CodePoint.not_isHigh ht.1)

theorem readString_nil_eq_ok {s : Text} {fuel : Nat} (ht : t.isScalar = true)
    (h : readString [] fuel t = .ok (s, rest)) : s.Unpaired ∧ rest.isScalar = true :=
  readString_eq_ok ht .nil (fun _ ha ↦ absurd ha (Option.not_mem_none _)) h

/-- A document that a text without surrogates may spell: its integers are not too long, and its texts
have no pairs of surrogates. -/
inductive FromText : Json → Prop
  | null : FromText null
  | bool (b : Bool) : FromText (bool b)
  | int (n : Int) (h : n.natAbs < Nat.pow 10 Numeral.digitLimit) : FromText (int n)
  | real (x : Binary64) : FromText (real x)
  | text (t : Text) (h : t.Unpaired) : FromText (text t)
  | list (items : List Json) (h : ∀ item ∈ items, FromText item) : FromText (list items)
  | object (fields : List (Text × Json)) (h : ∀ p ∈ fields, FromText p.2) :
      FromText (object fields)

theorem skipSpace_suffix (t : Text) : skipSpace t <:+ t := List.dropWhile_suffix _

theorem digits_eq (t : Text) : (∀ d ∈ (digits t).1, d < 10) ∧ (digits t).2 <:+ t := by
  refine ⟨?_, List.dropWhile_suffix _⟩
  intro d hd
  obtain ⟨c, hc, rfl⟩ := List.mem_map.1 hd
  have := (CodePoint.isAsciiDigit_iff c).1 (List.all_eq_true.1 List.all_takeWhile c hc)
  omega

theorem whole?_eq_some {ds : List Nat} (h : whole? t = some (ds, rest)) :
    (∀ d ∈ ds, d < 10) ∧ rest <:+ t := by
  have found := digits_eq t
  rw [whole?] at h
  split at h
  · cases h
  · obtain ⟨rfl, rfl⟩ := Prod.mk.inj (Option.some.inj h)
    exact ⟨by simp, List.drop_suffix 1 t⟩
  · rwa [Option.some.inj h] at found

theorem fraction?_eq_some {ds : List Nat} (h : fraction? t = some (ds, rest)) : rest <:+ t := by
  cases t with
  | nil => cases h
  | cons c t =>
    rw [fraction?] at h
    split at h
    · simp only [Option.ite_none_left_eq_some] at h
      rw [← (Prod.mk.inj (Option.some.inj h.2)).2]
      exact (digits_eq t).2.trans (List.suffix_cons c t)
    · cases h

theorem splitSign_suffix (t : Text) : (Numeral.splitSign t).2 <:+ t := by
  cases t with
  | nil => exact List.suffix_rfl
  | cons c t =>
    rw [Numeral.splitSign]
    split
    · exact List.suffix_cons c t
    split
    · exact List.suffix_cons c t
    · exact List.suffix_rfl

theorem exponent?_eq_some {e : Int} (h : exponent? t = some (e, rest)) : rest <:+ t := by
  cases t with
  | nil => cases h
  | cons c t =>
    rw [exponent?] at h
    split at h
    · simp only [Option.ite_none_left_eq_some] at h
      rw [← (Prod.mk.inj (Option.some.inj h.2)).2]
      exact ((digits_eq _).2.trans (splitSign_suffix t)).trans (List.suffix_cons c t)
    · cases h

theorem suffix_of_sign {negative : Bool} {body : Text}
    (h : (match t with
      | c :: rest => if c = CodePoint.ofChar '-' then (true, rest) else (false, t)
      | [] => (false, [])) = (negative, body)) : body <:+ t := by
  split at h
  · split at h
    · exact (Prod.mk.inj h).2 ▸ List.suffix_cons _ _
    · exact (Prod.mk.inj h).2 ▸ List.suffix_rfl
  · exact (Prod.mk.inj h).2 ▸ List.suffix_rfl

theorem readNumber_eq_ok {j : Json} (h : readNumber t = .ok (j, rest)) :
    FromText j ∧ rest <:+ t := by
  rw [readNumber.eq_def] at h
  split at h
  next negative body hsign =>
  have sign := suffix_of_sign hsign
  split at h
  · cases h
  next ds afterWhole hwhole =>
  obtain ⟨small, suffix⟩ := whole?_eq_some hwhole
  split at h
  next fs afterFraction hfraction =>
  have fraction : afterFraction <:+ afterWhole := by
    rcases hf : fraction? afterWhole with _ | found
    · exact (Prod.mk.inj (hf ▸ hfraction)).2 ▸ List.suffix_rfl
    · exact fraction?_eq_some (hf.trans (congrArg some (hf ▸ hfraction)))
  split at h
  next e afterExponent hexponent =>
  have exponent : afterExponent <:+ afterFraction := by
    rcases he : exponent? afterFraction with _ | found
    · exact (Prod.mk.inj (he ▸ hexponent)).2 ▸ List.suffix_rfl
    · exact exponent?_eq_some (he.trans (congrArg some (he ▸ hexponent)))
  split at h
  · split at h
    · cases h
    next few =>
    obtain ⟨rfl, rfl⟩ := Prod.mk.inj (Except.ok.inj h)
    refine ⟨.int _ ?_, suffix.trans sign⟩
    have bound := Numeral.ofDigits_lt_of_length_le small (Nat.not_lt.1 few)
    split
    · rwa [Int.natAbs_neg, Int.natAbs_natCast]
    · rwa [Int.natAbs_natCast]
  · obtain ⟨rfl, rfl⟩ := Prod.mk.inj (Except.ok.inj h)
    exact ⟨.real _, exponent.trans (fraction.trans (suffix.trans sign))⟩

def Gives (item : Text → Step Json) : Prop :=
  ∀ {t j rest}, t.isScalar = true → item t = .ok (j, rest) → FromText j ∧ rest.isScalar = true

theorem readScalar_gives : Gives readScalar := by
  intro t j rest ht h
  have values : ∀ w ∈ words, FromText w.2 := by
    simp only [words, List.mem_cons, List.not_mem_nil, or_false, forall_eq_or_imp, forall_eq]
    exact ⟨.null, .bool true, .bool false, .real _, .real _, .real _⟩
  rw [readScalar] at h
  split at h
  · next word value hw =>
    obtain ⟨rfl, rfl⟩ := Prod.mk.inj (Except.ok.inj h)
    exact ⟨values _ (List.mem_of_find?_eq_some hw),
      Text.isScalar_of_suffix (List.drop_suffix _ t) ht⟩
  · exact (readNumber_eq_ok h).imp_right fun suffix ↦ Text.isScalar_of_suffix suffix ht

theorem isScalar_skipSpace (ht : t.isScalar = true) : (skipSpace t).isScalar = true :=
  Text.isScalar_of_suffix (skipSpace_suffix t) ht

section

variable {item : Text → Step Json} {fuel bound : Nat} {j : Json}

theorem readItems_gives (hi : Gives item) {done : List Json} (hd : ∀ x ∈ done, FromText x)
    (ht : t.isScalar = true) (h : readItems item done fuel t = .ok (j, rest)) :
    FromText j ∧ rest.isScalar = true := by
  induction fuel generalizing done t with
  | zero => cases h
  | succ fuel ih =>
    rw [readItems] at h
    split at h
    · cases h
    next value tail hitem =>
    obtain ⟨hv, tailScalar⟩ := hi ht hitem
    have hd' : ∀ x ∈ value :: done, FromText x := List.forall_mem_cons.2 ⟨hv, hd⟩
    have after := isScalar_skipSpace tailScalar
    split at h
    · cases h
    next c tail' hskip =>
    rw [hskip, Text.isScalar_cons, Bool.and_eq_true] at after
    split at h
    · obtain ⟨rfl, rfl⟩ := Prod.mk.inj (Except.ok.inj h)
      exact ⟨.list _ fun x hx ↦ hd' x (List.mem_reverse.1 hx), after.2⟩
    split at h
    · exact ih hd' (isScalar_skipSpace after.2) h
    · cases h

theorem readKey_gives {key : Text} (ht : t.isScalar = true) (h : readKey bound t = .ok (key, rest)) :
    rest.isScalar = true := by
  cases t with
  | nil => cases h
  | cons c t =>
    rw [Text.isScalar_cons, Bool.and_eq_true] at ht
    rw [readKey] at h
    split at h
    swap
    · cases h
    split at h
    · cases h
    next s tail hstring =>
    have after := isScalar_skipSpace (readString_nil_eq_ok ht.2 hstring).2
    split at h
    · cases h
    next c' tail' hskip =>
    rw [hskip, Text.isScalar_cons, Bool.and_eq_true] at after
    split at h
    · obtain ⟨-, rfl⟩ := Prod.mk.inj (Except.ok.inj h)
      exact isScalar_skipSpace after.2
    · cases h

theorem readFields_gives (hi : Gives item) {done : List (Text × Json)}
    (hd : ∀ p ∈ done, FromText p.2) (ht : t.isScalar = true)
    (h : readFields item bound done fuel t = .ok (j, rest)) :
    FromText j ∧ rest.isScalar = true := by
  induction fuel generalizing done t with
  | zero => cases h
  | succ fuel ih =>
    rw [readFields] at h
    split at h
    · cases h
    next key tail hkey =>
    split at h
    · cases h
    next value tail' hitem =>
    obtain ⟨hv, tailScalar⟩ := hi (readKey_gives ht hkey) hitem
    have hd' : ∀ p ∈ Entries.put done key value, FromText p.2 := by
      intro p hp
      rcases Entries.mem_put hp with rfl | hp
      · exact hv
      · exact hd p hp
    have after := isScalar_skipSpace tailScalar
    simp only [] at h
    split at h
    · cases h
    next c tail'' hskip =>
    rw [hskip, Text.isScalar_cons, Bool.and_eq_true] at after
    split at h
    · obtain ⟨rfl, rfl⟩ := Prod.mk.inj (Except.ok.inj h)
      exact ⟨.object _ hd', after.2⟩
    split at h
    · exact ih hd' (isScalar_skipSpace after.2) h
    · cases h

end

theorem readValue_step {depth : Nat} (inner : ∀ d, depth = d + 1 → Gives (readValue bound d)) :
    Gives (readValue bound depth) := by
  intro t j rest ht h
  cases t with
  | nil => rw [readValue.eq_def] at h; cases h
  | cons c t =>
    have all := ht
    rw [Text.isScalar_cons, Bool.and_eq_true] at ht
    have after := isScalar_skipSpace ht.2
    rw [readValue.eq_def] at h
    simp only [] at h
    split at h
    · -- a string
      split at h
      · next s tail hstring =>
        obtain ⟨rfl, rfl⟩ := Prod.mk.inj (Except.ok.inj h)
        exact (readString_nil_eq_ok ht.2 hstring).imp_left fun unpaired ↦ .text s unpaired
      · cases h
    split at h
    · -- a list
      split at h
      · cases h
      next d =>
      split at h
      · cases h
      next c' tail hskip =>
      rw [hskip] at after
      split at h
      · obtain ⟨rfl, rfl⟩ := Prod.mk.inj (Except.ok.inj h)
        rw [Text.isScalar_cons, Bool.and_eq_true] at after
        exact ⟨.list [] (List.forall_mem_nil _), after.2⟩
      · exact readItems_gives (inner d rfl) (List.forall_mem_nil _) after h
    split at h
    · -- an object
      split at h
      · cases h
      next d =>
      split at h
      · cases h
      next c' tail hskip =>
      rw [hskip] at after
      split at h
      · obtain ⟨rfl, rfl⟩ := Prod.mk.inj (Except.ok.inj h)
        rw [Text.isScalar_cons, Bool.and_eq_true] at after
        exact ⟨.object [] (List.forall_mem_nil _), after.2⟩
      · exact readFields_gives (inner d rfl) (List.forall_mem_nil _) after h
    · exact readScalar_gives all h

theorem readValue_gives (bound depth : Nat) : Gives (readValue bound depth) := by
  induction depth with
  | zero => exact readValue_step fun d hd ↦ absurd hd.symm (Nat.succ_ne_zero d)
  | succ depth ih => exact readValue_step fun d hd ↦ Nat.succ.inj hd ▸ ih

theorem ofText_eq_ok {j : Json} (ht : t.isScalar = true) (h : ofText t = .ok j) : FromText j := by
  rw [ofText] at h
  split at h
  · cases h
  next value tail hvalue =>
  split at h
  · obtain rfl := Except.ok.inj h
    exact (readValue_gives _ _ (isScalar_skipSpace ht) hvalue).1
  · cases h

section

variable {fields : Entries Json} {key : Text}

theorem fromText_of_get? (h : (object fields).FromText) {value : Json}
    (hv : fields.get? key = some value) : value.FromText := by
  cases h with
  | object _ h => exact h (key, value) (Entries.mem_of_get? hv)

theorem requireText_eq_ok {s : Text} (h : requireText fields key = .ok s) :
    fields.get? key = some (text s) := by
  rw [requireText] at h
  split at h
  · cases h
  · next t ht => exact Except.ok.inj h ▸ ht
  · cases h

theorem requireInt_eq_ok {n : Int} (h : requireInt fields key = .ok n) :
    fields.get? key = some (int n) := by
  rw [requireInt] at h
  split at h
  · cases h
  · next m hm => exact Except.ok.inj h ▸ hm
  · cases h

theorem requireList_eq_ok {items : List Json} (h : requireList fields key = .ok items) :
    fields.get? key = some (list items) := by
  rw [requireList] at h
  split at h
  · cases h
  · next found hf => exact Except.ok.inj h ▸ hf
  · cases h

namespace FromText

theorem unpaired (h : (Json.object fields).FromText) {s : Text} (hs : requireText fields key = .ok s) :
    s.Unpaired := by
  cases fromText_of_get? h (requireText_eq_ok hs) with
  | text _ h => exact h

theorem small (h : (Json.object fields).FromText) {n : Int} (hn : requireInt fields key = .ok n) :
    n.natAbs < Nat.pow 10 Numeral.digitLimit := by
  cases fromText_of_get? h (requireInt_eq_ok hn) with
  | int _ h => exact h

theorem items (h : (Json.object fields).FromText) {items : List Json}
    (hi : requireList fields key = .ok items) : ∀ item ∈ items, item.FromText := by
  cases fromText_of_get? h (requireList_eq_ok hi) with
  | list _ h => exact h

end FromText

end

end Json

end ShardVault
