import ShardVault.Proofs.Json.Plain

namespace ShardVault

def Text.isPrinted (t : Text) : Bool :=
  t.all (·.within ' ' '~')

theorem CodePoint.isPrinted_iff (c : CodePoint) :
    c.within ' ' '~' = true ↔ 0x20 ≤ c.val ∧ c.val < 0x7F := by
  rw [within, Bool.and_eq_true, decide_eq_true_eq, decide_eq_true_eq, Nat.lt_succ_iff]
  rfl

namespace Text

@[simp] theorem isPrinted_append (s t : Text) :
    (s ++ t).isPrinted = (s.isPrinted && t.isPrinted) :=
  List.all_append

@[simp] theorem isPrinted_cons (c : CodePoint) (t : Text) :
    isPrinted (c :: t) = (c.within ' ' '~' && isPrinted t) :=
  List.all_cons

theorem isPrinted_join {separator : Text} (hs : separator.isPrinted = true) {ts : List Text}
    (h : ∀ t ∈ ts, t.isPrinted = true) : (join separator ts).isPrinted = true :=
  (all_join_iff hs).2 h

theorem isPrinted_ofInt (n : Int) : (ofInt n).isPrinted = true := by
  apply all_ofInt (by decide)
  intro c digit
  have small := (CodePoint.isAsciiDigit_iff c).1 digit
  exact (CodePoint.isPrinted_iff c).2 (by omega)

theorem isPrinted_hexPadded (width n : Nat) : (hexPadded width n).isPrinted = true :=
  all_hexPadded (by decide) width n

end Text

namespace Json

theorem isPrinted_unitEscape (n : Nat) : (unitEscape n).isPrinted = true := by
  rw [unitEscape, Text.isPrinted_append, Text.isPrinted_hexPadded]
  rfl

theorem isPrinted_writePoint (c : CodePoint) : (writePoint true c).isPrinted = true := by
  rw [writePoint]
  iterate 7 refine iteInduction (motive := (Text.isPrinted · = true)) (fun _ ↦ rfl) fun _ ↦ ?_
  split
  · exact isPrinted_unitEscape _
  split
  · next least shown =>
    have most : c.val < 0x7F := of_decide_eq_true shown
    rw [Text.isPrinted_cons, (CodePoint.isPrinted_iff c).2 ⟨Nat.not_lt.1 least, most⟩]
    rfl
  split
  · exact isPrinted_unitEscape _
  · rw [Text.isPrinted_append, isPrinted_unitEscape, isPrinted_unitEscape]
    rfl

theorem isPrinted_writeText (t : Text) : (writeText true t).isPrinted = true := by
  have body : Text.isPrinted (t.flatMap (writePoint true)) = true := by
    rw [Text.isPrinted, List.all_flatMap, List.all_eq_true]
    exact fun c _ ↦ isPrinted_writePoint c
  rw [writeText, Text.isPrinted_append, Text.isPrinted_append, body]
  rfl

/-- A style that writes ASCII only and separates by printed characters. -/
structure Style.Printed (style : Style) : Prop where
  ascii : style.asciiOnly = true
  items : style.betweenItems.isPrinted = true
  key : style.afterKey.isPrinted = true

theorem Readable.isPrinted_write {style : Style} (hs : style.Printed) {asciiOnly : Bool}
    {depth : Nat} {j : Json} (h : Readable asciiOnly depth j) :
    (write style j).isPrinted = true := by
  induction h with
  | null =>
    rw [write]
    rfl
  | bool b =>
    cases b <;> rw [write] <;> rfl
  | int n _ =>
    rw [write]
    exact Text.isPrinted_ofInt n
  | text t _ =>
    rw [write, hs.ascii]
    exact isPrinted_writeText t
  | list items _ ih =>
    have parts := Text.isPrinted_join hs.items (List.forall_mem_map.2 ih)
    rw [write_list, Text.isPrinted_cons, Text.isPrinted_append, parts]
    rfl
  | object fields distinct keys values ih =>
    have parts : ∀ t ∈ (style.order fields).map (fieldText style), t.isPrinted = true := by
      intro t ht
      obtain ⟨p, hp, rfl⟩ := List.mem_map.1 ht
      have value := ih p ((order_perm style fields).mem_iff.1 hp)
      rw [fieldText, hs.ascii, Text.isPrinted_append, Text.isPrinted_append, isPrinted_writeText,
        hs.key, value]
      rfl
    rw [write_object, Text.isPrinted_cons, Text.isPrinted_append,
      Text.isPrinted_join hs.items parts]
    rfl

end Json

section

variable {high low : CodePoint} {t : Text}

def CodePoint.ofHalves (high low : CodePoint) : CodePoint :=
  CodePoint.ofNat (0x10000 + (high.val - 0xD800) * 0x400 + (low.val - 0xDC00))

def Text.paired : Text → Text
  | high :: low :: t =>
    if high.val / 0x400 = 0x36 ∧ low.val / 0x400 = 0x37 then .ofHalves high low :: paired t
    else high :: paired (low :: t)
  | t => t

theorem CodePoint.val_ofHalves (hh : high.val / 0x400 = 0x36) (hl : low.val / 0x400 = 0x37) :
    (ofHalves high low).val = 0x10000 + (high.val - 0xD800) * 0x400 + (low.val - 0xDC00) := by
  apply Nat.mod_eq_of_lt
  omega

namespace Json

theorem writePoint_of_ge {c : CodePoint} (least : 0x7F ≤ c.val) : writePoint true c =
    if c.val < 0x10000 then unitEscape c.val
    else unitEscape (0xD800 + (c.val - 0x10000) / 0x400) ++
      unitEscape (0xDC00 + (c.val - 0x10000) % 0x400) := by
  have ne {n : Nat} (small : n < 0x7F) : ¬ c.val = n := by omega
  have printed : ¬ c.val < 0x20 := by omega
  have shown : ¬ (!true || decide (c.val < 0x7F)) = true := by
    rw [decide_eq_false (Nat.not_lt.2 least)]
    exact Bool.false_ne_true
  rw [writePoint, if_neg (ne (by decide)), if_neg (ne (by decide)), if_neg (ne (by decide)),
    if_neg (ne (by decide)), if_neg (ne (by decide)), if_neg (ne (by decide)),
    if_neg (ne (by decide)), if_neg printed, if_neg shown]

theorem writePoint_ofHalves (hh : high.val / 0x400 = 0x36) (hl : low.val / 0x400 = 0x37) :
    writePoint true (.ofHalves high low) = writePoint true high ++ writePoint true low := by
  have val := CodePoint.val_ofHalves hh hl
  have first : writePoint true high = unitEscape high.val :=
    (writePoint_of_ge (by omega)).trans (if_pos (by omega))
  have second : writePoint true low = unitEscape low.val :=
    (writePoint_of_ge (by omega)).trans (if_pos (by omega))
  have both := (writePoint_of_ge (c := .ofHalves high low) (by omega)).trans (if_neg (by omega))
  have high_eq : 0xD800 + ((CodePoint.ofHalves high low).val - 0x10000) / 0x400 = high.val := by
    omega
  have low_eq : 0xDC00 + ((CodePoint.ofHalves high low).val - 0x10000) % 0x400 = low.val := by
    omega
  rw [first, second, both, high_eq, low_eq]

theorem writeText_paired (t : Text) : writeText true t.paired = writeText true t := by
  have same : t.paired.flatMap (writePoint true) = t.flatMap (writePoint true) := by
    fun_induction Text.paired t with
    | case1 high low t pair ih =>
      rw [List.flatMap_cons, List.flatMap_cons, List.flatMap_cons, ih,
        writePoint_ofHalves pair.1 pair.2, List.append_assoc]
    | case2 high low t _ ih => rw [List.flatMap_cons, List.flatMap_cons, ih]
    | case3 t _ => rfl
  rw [writeText, same, writeText]

end Json

theorem Text.head?_paired (c : CodePoint) (t : Text) :
    ∀ d ∈ (paired (c :: t)).head?, d = c ∨ 0x10000 ≤ d.val := by
  cases t with
  | nil => exact fun d hd ↦ .inl (Option.some.inj hd).symm
  | cons low t =>
    rw [paired]
    split
    · next pair =>
      intro d hd
      obtain rfl := Option.some.inj hd
      have val := CodePoint.val_ofHalves pair.1 pair.2
      exact .inr (by omega)
    · exact fun d hd ↦ .inl (Option.some.inj hd).symm

theorem Text.unpaired_paired (t : Text) : t.paired.Unpaired := by
  unfold Unpaired
  fun_induction paired t with
  | case1 high low t pair ih =>
    refine List.isChain_cons.2 ⟨fun d _ isHigh ↦ ?_, ih⟩
    have val := CodePoint.val_ofHalves pair.1 pair.2
    unfold CodePoint.IsHigh at isHigh
    omega
  | case2 high low t apart ih =>
    refine List.isChain_cons.2 ⟨fun d hd isHigh isLow ↦ ?_, ih⟩
    rcases head?_paired low t d hd with rfl | large
    · exact apart ⟨isHigh, isLow⟩
    · unfold CodePoint.IsLow at isLow
      omega
  | case3 t short =>
    match t, short with
    | [], _ => exact .nil
    | [c], _ => exact .singleton c
    | high :: low :: t, short => exact absurd rfl (short high low t)

end

end ShardVault
