import Mathlib.Algebra.Ring.Nat
import ShardVault.Proofs.Json.RoundTrip
import ShardVault.Proofs.Text.Utf8

namespace ShardVault

namespace Text

theorem isScalar_flatMap_iff {α : Type} {xs : List α} {f : α → Text} :
    isScalar (xs.flatMap f) = true ↔ ∀ x ∈ xs, (f x).isScalar = true := by
  simp only [isScalar, List.all_flatMap, List.all_eq_true]

section

variable {holds : CodePoint → Bool} {separator : Text} {ts : List Text}

theorem all_join_iff (hs : separator.all holds = true) :
    (join separator ts).all holds = true ↔ ∀ t ∈ ts, t.all holds = true := by
  induction ts with
  | nil => exact iff_of_true rfl (List.forall_mem_nil _)
  | cons t ts ih =>
    cases ts with
    | nil => simp [join_singleton]
    | cons u us =>
      rw [join_cons_cons, List.all_append, List.all_append, hs, Bool.true_and, Bool.and_eq_true, ih,
        List.forall_mem_cons (l := u :: us)]

theorem all_hexPadded (digits : ∀ k : Fin 16, holds (CodePoint.ofHexDigit k) = true)
    (width n : Nat) : (hexPadded width n).all holds = true := by
  induction width generalizing n with
  | zero => rfl
  | succ width ih =>
    have last : holds (CodePoint.ofHexDigit (n % 16)) = true :=
      digits ⟨n % 16, Nat.mod_lt _ (by decide)⟩
    rw [hexPadded, List.all_append, ih, Bool.true_and, List.all_cons, last]
    rfl

theorem all_ofInt (hyphen : holds (CodePoint.ofChar '-') = true)
    (digits : ∀ c : CodePoint, c.isAsciiDigit = true → holds c = true) (n : Int) :
    (ofInt n).all holds = true := by
  have natural : (ofNat n.natAbs).all holds = true :=
    List.all_eq_true.2 fun c hc ↦ digits c (all_isAsciiDigit_ofNat n.natAbs c hc)
  unfold ofInt
  split
  · rw [List.all_append, natural, Bool.and_true]
    exact List.all_eq_true.2 fun c hc ↦ List.mem_singleton.1 hc ▸ hyphen
  · exact natural

end

theorem isScalar_join_iff {separator : Text} (hs : separator.isScalar = true) {ts : List Text} :
    (join separator ts).isScalar = true ↔ ∀ t ∈ ts, t.isScalar = true :=
  all_join_iff hs

theorem isScalar_hexPadded (width n : Nat) : (hexPadded width n).isScalar = true :=
  all_hexPadded (by decide) width n

theorem length_hexPadded (width n : Nat) : (hexPadded width n).length = width := by
  induction width generalizing n with
  | zero => rfl
  | succ width ih => simp [hexPadded, ih]

theorem isScalar_ofInt (n : Int) : (ofInt n).isScalar = true := by
  apply all_ofInt (by decide)
  intro c digit
  have small := (CodePoint.isAsciiDigit_iff c).1 digit
  have plain : c.isSurrogate = false := by
    simp only [CodePoint.isSurrogate, Bool.and_eq_false_iff, decide_eq_false_iff_not]
    omega
  rw [plain]
  rfl

theorem length_ofInt_le {n : Int} {k : Nat} (hk : 0 < k) (h : n.natAbs < Nat.pow 10 k) :
    (ofInt n).length ≤ k + 1 := by
  have := (length_ofNat_le_iff hk).2 h
  unfold ofInt
  split
  · rw [List.length_append]
    exact Nat.add_comm k 1 ▸ Nat.add_le_add (Nat.le_refl 1) this
  · omega

theorem length_join_le (separator : Text) (ts : List Text) :
    (join separator ts).length ≤ (ts.map fun t ↦ separator.length + t.length).sum := by
  induction ts with
  | nil => simp [join]
  | cons t ts ih =>
    cases ts with
    | nil => simp [join_singleton]
    | cons u us =>
      rw [join_cons_cons, List.map_cons, List.sum_cons, List.length_append, List.length_append]
      omega

theorem length_encodeAll_join (separator : Text) {ts : List Text} (h : ts ≠ []) :
    (Utf8.encodeAll separator).length + (Utf8.encodeAll (join separator ts)).length =
      (ts.map fun t ↦ (Utf8.encodeAll separator).length + (Utf8.encodeAll t).length).sum := by
  induction ts with
  | nil => contradiction
  | cons t ts ih =>
    cases ts with
    | nil => rw [join_singleton, List.map_singleton, List.sum_singleton]
    | cons u us =>
      have rest := ih (List.cons_ne_nil u us)
      rw [join_cons_cons, Utf8.encodeAll_append, Utf8.encodeAll_append, List.map_cons, List.sum_cons,
        ← rest, List.length_append, List.length_append]
      omega

end Text

namespace Json

/-- A document without floating-point numbers and surrogates. -/
inductive Plain : Json → Prop
  | null : Plain null
  | bool (b : Bool) : Plain (bool b)
  | int (n : Int) : Plain (int n)
  | text (t : Text) (h : t.isScalar = true) : Plain (text t)
  | list (items : List Json) (h : ∀ item ∈ items, Plain item) : Plain (list items)
  | object (fields : List (Text × Json)) (keys : ∀ p ∈ fields, p.1.isScalar = true)
      (values : ∀ p ∈ fields, Plain p.2) : Plain (object fields)

theorem plain_text_iff {t : Text} : (text t).Plain ↔ t.isScalar = true :=
  ⟨fun h ↦ (by cases h; assumption), .text t⟩

theorem plain_list_iff {items : List Json} : (list items).Plain ↔ ∀ item ∈ items, item.Plain :=
  ⟨fun h ↦ (by cases h; assumption), .list items⟩

theorem plain_object_iff {fields : List (Text × Json)} (keys : ∀ p ∈ fields, p.1.isScalar = true) :
    (object fields).Plain ↔ ∀ p ∈ fields, p.2.Plain :=
  ⟨fun h ↦ (by cases h; assumption), .object fields keys⟩

theorem isScalar_unitEscape (n : Nat) : (unitEscape n).isScalar = true := by
  rw [unitEscape, Text.isScalar_append, Text.isScalar_hexPadded]
  rfl

theorem length_unitEscape (n : Nat) : (unitEscape n).length = 6 := by
  rw [unitEscape, List.length_append, Text.length_hexPadded]
  rfl

theorem isScalar_writePoint_iff {asciiOnly : Bool} {c : CodePoint} :
    (writePoint asciiOnly c).isScalar = true ↔ asciiOnly = true ∨ c.isSurrogate = false := by
  have low (h : c.val < 0xD800) : c.isSurrogate = false := by
    simp only [CodePoint.isSurrogate, Bool.and_eq_false_iff, decide_eq_false_iff_not]
    omega
  have spelling := spelling_writePoint asciiOnly c
  generalize writePoint asciiOnly c = written at spelling ⊢
  cases spelling with
  | plain _ _ _ shown =>
    have single : Text.isScalar [c] = !c.isSurrogate := by
      rw [Text.isScalar_cons]
      exact Bool.and_true _
    rw [single, Bool.not_eq_true', or_iff_right_of_imp shown]
  | short letter known meant =>
    have letters : (['"', '\\', 'n', 'r', 't', 'f', 'b'].all fun letter ↦
        Text.isScalar [CodePoint.ofChar '\\', CodePoint.ofChar letter] &&
          (shortEscape? (CodePoint.ofChar letter)).all fun c ↦ !c.isSurrogate) = true := by decide
    have each := List.all_eq_true.1 letters letter known
    rw [meant, Bool.and_eq_true, Option.all_some, Bool.not_eq_true'] at each
    exact iff_of_true each.1 (.inr each.2)
  | unit _ needed =>
    exact iff_of_true (isScalar_unitEscape c.val) (needed.imp_right fun control ↦ low (by omega))
  | pair high low isHigh isLow joined =>
    refine iff_of_true ?_ (.inr ?_)
    · rw [Text.isScalar_append, isScalar_unitEscape, isScalar_unitEscape]
      rfl
    · simp only [CodePoint.isSurrogate, Bool.and_eq_false_iff, decide_eq_false_iff_not]
      omega

theorem length_writePoint_le (asciiOnly : Bool) (c : CodePoint) :
    (writePoint asciiOnly c).length ≤ 12 := by
  have spelling := spelling_writePoint asciiOnly c
  generalize writePoint asciiOnly c = written at spelling ⊢
  cases spelling with
  | plain => exact Nat.le_of_ble_eq_true rfl
  | short => exact Nat.le_of_ble_eq_true rfl
  | unit =>
    rw [length_unitEscape]
    exact Nat.le_of_ble_eq_true rfl
  | pair high low => rw [List.length_append, length_unitEscape, length_unitEscape]

theorem isScalar_writeText_iff {asciiOnly : Bool} {t : Text} :
    (writeText asciiOnly t).isScalar = true ↔ asciiOnly = true ∨ t.isScalar = true := by
  have quoted : (writeText asciiOnly t).isScalar =
      Text.isScalar (t.flatMap (writePoint asciiOnly)) := by
    rw [writeText, Text.isScalar_append, Text.isScalar_append]
    exact (Bool.and_true _).trans (Bool.true_and _)
  rw [quoted, Text.isScalar_flatMap_iff, Text.isScalar, List.all_eq_true]
  simp only [isScalar_writePoint_iff, Bool.not_eq_true']
  rcases asciiOnly with _ | _ <;> simp

theorem length_writeText_le (asciiOnly : Bool) (t : Text) :
    (writeText asciiOnly t).length ≤ 12 * t.length + 2 := by
  have inner : (t.flatMap (writePoint asciiOnly)).length ≤ 12 * t.length := by
    induction t with
    | nil => simp
    | cons c t ih =>
      have := length_writePoint_le asciiOnly c
      rw [List.flatMap_cons, List.length_append, List.length_cons]
      omega
  have quote : (("\"" : String) : Text).length = 1 := rfl
  rw [writeText, List.length_append, List.length_append, quote]
  omega

section

variable {style : Style} (hb : style.betweenItems.isScalar = true)
  (ha : style.afterKey.isScalar = true)
include hb

theorem isScalar_write_list_iff {items : List Json} :
    (write style (list items)).isScalar = true ↔
      ∀ item ∈ items, (write style item).isScalar = true := by
  have bracketed : (write style (list items)).isScalar =
      (Text.join style.betweenItems (items.map (write style))).isScalar := by
    rw [write_list, Text.isScalar_cons, Text.isScalar_append]
    exact (Bool.true_and _).trans (Bool.and_true _)
  rw [bracketed, Text.isScalar_join_iff hb, List.forall_mem_map]

include ha

theorem isScalar_write_object_iff {fields : List (Text × Json)} :
    (write style (object fields)).isScalar = true ↔ ∀ p ∈ fields,
      (style.asciiOnly = true ∨ p.1.isScalar = true) ∧ (write style p.2).isScalar = true := by
  have braced : (write style (object fields)).isScalar =
      (Text.join style.betweenItems ((style.order fields).map (fieldText style))).isScalar := by
    rw [write_object, Text.isScalar_cons, Text.isScalar_append]
    exact (Bool.true_and _).trans (Bool.and_true _)
  rw [braced, Text.isScalar_join_iff hb, List.forall_mem_map]
  have field (p : Text × Json) : (fieldText style p).isScalar = true ↔
      (style.asciiOnly = true ∨ p.1.isScalar = true) ∧ (write style p.2).isScalar = true := by
    rw [fieldText, Text.isScalar_append, Text.isScalar_append, ha, Bool.and_true,
      Bool.and_eq_true, isScalar_writeText_iff]
  simp only [field, (order_perm style fields).mem_iff]

theorem Plain.isScalar_write {j : Json} (h : j.Plain) : (write style j).isScalar = true := by
  induction h with
  | null => rw [write]; rfl
  | bool b => cases b <;> rw [write] <;> rfl
  | int n => rw [write]; exact Text.isScalar_ofInt n
  | text t ht => rw [write]; exact isScalar_writeText_iff.2 (.inr ht)
  | list items _ ih => exact (isScalar_write_list_iff hb).2 ih
  | object fields keys _ ih =>
    exact (isScalar_write_object_iff hb ha).2 fun p hp ↦ ⟨.inr (keys p hp), ih p hp⟩

/-- What is written has no surrogates just if the document has none, or is written in ASCII. -/
theorem Readable.isScalar_write_iff {depth : Nat} {j : Json}
    (h : Readable style.asciiOnly depth j) :
    (write style j).isScalar = true ↔ style.asciiOnly = true ∨ j.Plain := by
  constructor
  · intro hs
    refine or_iff_not_imp_left.2 fun raw ↦ ?_
    induction h with
    | null => exact .null
    | bool b => exact .bool b
    | int n => exact .int n
    | text t =>
      rw [write] at hs
      exact .text t ((isScalar_writeText_iff.1 hs).resolve_left raw)
    | list items _ ih =>
      have each := (isScalar_write_list_iff hb).1 hs
      exact .list items fun item hi ↦ ih item hi (each item hi)
    | object fields _ _ _ ih =>
      have each := (isScalar_write_object_iff hb ha).1 hs
      exact .object fields (fun p hp ↦ (each p hp).1.resolve_left raw)
        fun p hp ↦ ih p hp (each p hp).2
  · rintro (ascii | hp)
    · induction h with
      | null => rw [write]; rfl
      | bool b => cases b <;> rw [write] <;> rfl
      | int n => rw [write]; exact Text.isScalar_ofInt n
      | text t => rw [write]; exact isScalar_writeText_iff.2 (.inl ascii)
      | list items _ ih => exact (isScalar_write_list_iff hb).2 ih
      | object fields _ _ _ ih =>
        exact (isScalar_write_object_iff hb ha).2 fun p hp ↦ ⟨.inl ascii, ih p hp⟩
    · exact hp.isScalar_write hb ha

end

theorem length_write_list_le (style : Style) (items : List Json) :
    (write style (list items)).length ≤
      2 + (items.map fun j ↦ style.betweenItems.length + (write style j).length).sum := by
  have := Text.length_join_le style.betweenItems (items.map (write style))
  rw [List.map_map] at this
  rw [write_list, List.length_cons, List.length_append, List.length_singleton]
  exact Nat.le_trans (by omega) (Nat.add_le_add_left this 2)

theorem length_fieldText_le (style : Style) (p : Text × Json) : (fieldText style p).length ≤
    12 * p.1.length + 2 + style.afterKey.length + (write style p.2).length := by
  have := length_writeText_le style.asciiOnly p.1
  rw [fieldText, List.length_append, List.length_append]
  omega

theorem length_write_object_le (style : Style) (fields : List (Text × Json)) :
    (write style (object fields)).length ≤
      2 + (fields.map fun p ↦ style.betweenItems.length + (fieldText style p).length).sum := by
  have := Text.length_join_le style.betweenItems ((style.order fields).map (fieldText style))
  rw [List.map_map, ((order_perm style fields).map _).sum_nat] at this
  rw [write_object, List.length_cons, List.length_append, List.length_singleton]
  exact Nat.le_trans (by omega) (Nat.add_le_add_left this 2)

theorem length_encodeAll_object (style : Style) {fields : List (Text × Json)} (h : fields ≠ []) :
    (Utf8.encodeAll style.betweenItems).length +
        (Utf8.encodeAll (write style (object fields))).length =
      2 + (fields.map fun p ↦ (Utf8.encodeAll style.betweenItems).length +
        (Utf8.encodeAll (fieldText style p)).length).sum := by
  have perm := (order_perm style fields).map (fieldText style)
  have some : (style.order fields).map (fieldText style) ≠ [] := by
    rw [← List.length_pos_iff, perm.length_eq, List.length_map]
    exact List.length_pos_iff.2 h
  have joined := Text.length_encodeAll_join style.betweenItems some
  rw [(perm.map _).sum_nat, List.map_map] at joined
  have brace : (Utf8.encodeAll [CodePoint.ofChar '\x7d']).length = 1 := rfl
  have opening (t : Text) :
      (Utf8.encodeAll (CodePoint.ofChar '\x7b' :: t)).length = 1 + (Utf8.encodeAll t).length := by
    rw [Utf8.encodeAll, List.flatMap_cons, List.length_append]
    rfl
  rw [write_object, opening, Utf8.encodeAll_append, List.length_append, brace]
  calc _ = 2 + ((Utf8.encodeAll style.betweenItems).length + (Utf8.encodeAll
        (Text.join style.betweenItems ((style.order fields).map (fieldText style)))).length) := by omega
    _ = _ := congrArg (2 + ·) joined

mutual

/-- A bound on the length of the compact form of a document, with twelve for every code point. -/
def weight : Json → Nat
  | null => 4
  | bool _ => 5
  | int n => (Text.ofInt n).length
  | real x => (writeReal x).length
  | text t => 12 * t.length + 2
  | list items => 2 + itemWeight items
  | object fields => 2 + fieldWeight fields

def itemWeight : List Json → Nat
  | [] => 0
  | item :: items => 1 + weight item + itemWeight items

def fieldWeight : List (Text × Json) → Nat
  | [] => 0
  | (key, value) :: fields => 12 * key.length + 4 + weight value + fieldWeight fields

end

mutual

theorem length_write_le_weight : (j : Json) → (write compact j).length ≤ weight j
  | null => by rw [write, weight]; decide
  | bool true => by rw [write, weight]; decide
  | bool false => by rw [write, weight]; decide
  | int n => by rw [write, weight]
  | real x => by rw [write, weight]
  | text t => by
    rw [write, weight]
    exact length_writeText_le _ t
  | list items => by
    rw [weight]
    exact Nat.le_trans (length_write_list_le compact items)
      (Nat.add_le_add_left (sum_le_itemWeight items) 2)
  | object fields => by
    rw [weight]
    exact Nat.le_trans (length_write_object_le compact fields)
      (Nat.add_le_add_left (sum_le_fieldWeight fields) 2)

theorem sum_le_itemWeight : (items : List Json) →
    (items.map fun j ↦ compact.betweenItems.length + (write compact j).length).sum ≤
      itemWeight items
  | [] => Nat.le_refl 0
  | item :: items => by
    rw [List.map_cons, List.sum_cons, itemWeight]
    exact Nat.add_le_add (Nat.add_le_add_left (length_write_le_weight item) 1)
      (sum_le_itemWeight items)

theorem sum_le_fieldWeight : (fields : List (Text × Json)) →
    (fields.map fun p ↦ compact.betweenItems.length + (fieldText compact p).length).sum ≤
      fieldWeight fields
  | [] => Nat.le_refl 0
  | (key, value) :: fields => by
    have first := length_fieldText_le compact (key, value)
    have hv := length_write_le_weight value
    have rest := sum_le_fieldWeight fields
    have comma : compact.betweenItems.length = 1 := rfl
    have colon : compact.afterKey.length = 1 := rfl
    simp only [List.map_cons, List.sum_cons, fieldWeight, comma, colon] at first rest ⊢
    omega

end

end Json

end ShardVault
