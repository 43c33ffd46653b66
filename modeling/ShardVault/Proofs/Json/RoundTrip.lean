import ShardVault.Proofs.Entries
import ShardVault.Proofs.Json.Scalars

namespace ShardVault

namespace Text

theorem join_singleton (separator t : Text) : join separator [t] = t := by
  simp [join]

theorem join_cons_cons (separator s t : Text) (ts : List Text) :
    join separator (s :: t :: ts) = s ++ (separator ++ join separator (t :: ts)) := by
  simp [join]

theorem length_join_ge (separator : Text) (ts : List Text) (h : ∀ t ∈ ts, 0 < t.length) :
    ts.length ≤ (join separator ts).length := by
  induction ts with
  | nil => simp
  | cons t ts ih =>
    have ht := h t (by simp)
    have := ih fun u hu ↦ h u (by simp [hu])
    cases ts with
    | nil =>
      rw [join_singleton]
      exact ht
    | cons u us =>
      rw [join_cons_cons]
      simp only [List.length_append, List.length_cons] at this ⊢
      omega

theorem length_le_join (separator : Text) {t : Text} {ts : List Text} (h : t ∈ ts) :
    t.length ≤ (join separator ts).length := by
  induction ts with
  | nil => cases h
  | cons u us ih =>
    cases us with
    | nil =>
      rw [List.mem_singleton.1 h, join_singleton]
    | cons v vs =>
      rw [join_cons_cons]
      simp only [List.length_append]
      rcases List.mem_cons.1 h with rfl | h
      · exact Nat.le_add_right _ _
      · have := ih h
        omega

end Text

namespace Json

/-- A style whose separators are a comma and a colon, each with white space after it at most. -/
structure Style.Sound (style : Style) : Prop where
  comma : ∃ gap, style.betweenItems = CodePoint.ofChar ',' :: gap ∧ ∀ c ∈ gap, isSpace c = true
  colon : ∃ gap, style.afterKey = CodePoint.ofChar ':' :: gap ∧ ∀ c ∈ gap, isSpace c = true

theorem compact_sound : compact.Sound := ⟨⟨[], rfl, by simp⟩, ⟨[], rfl, by simp⟩⟩

theorem isSpace_of_mem_singleton : ∀ c ∈ [CodePoint.ofChar ' '], isSpace c = true :=
  fun _ hc ↦ List.mem_singleton.1 hc ▸ rfl

theorem record_sound : record.Sound :=
  ⟨⟨_, rfl, isSpace_of_mem_singleton⟩, ⟨_, rfl, isSpace_of_mem_singleton⟩⟩

def Style.order {α : Type} (style : Style) (fields : List (Text × α)) : List (Text × α) :=
  if style.sortedKeys then sortFields fields else fields

theorem order_perm {α : Type} (style : Style) (fields : List (Text × α)) :
    (style.order fields).Perm fields := by
  unfold Style.order
  split
  · exact List.mergeSort_perm _ _
  · exact .refl _

theorem order_map {α β : Type} (style : Style) (f : α → β) (fields : List (Text × α)) :
    style.order (fields.map fun p ↦ (p.1, f p.2)) =
      (style.order fields).map fun p ↦ (p.1, f p.2) := by
  unfold Style.order
  split
  · exact (List.map_mergeSort (f := fun p : Text × α ↦ (p.1, f p.2)) fun _ _ _ _ ↦ rfl).symm
  · rfl

mutual

def arranged (style : Style) : Json → Json
  | list items => list (arrangedItems style items)
  | object fields => object (style.order (arrangedFields style fields))
  | null => null
  | bool b => bool b
  | int n => int n
  | real x => real x
  | text t => text t

def arrangedItems (style : Style) : List Json → List Json
  | [] => []
  | item :: items => arranged style item :: arrangedItems style items

def arrangedFields (style : Style) : List (Text × Json) → List (Text × Json)
  | [] => []
  | (key, value) :: fields => (key, arranged style value) :: arrangedFields style fields

end

theorem arrangedItems_eq (style : Style) (items : List Json) :
    arrangedItems style items = items.map (arranged style) := by
  induction items with
  | nil => rw [arrangedItems, List.map_nil]
  | cons item items ih => rw [arrangedItems, ih, List.map_cons]

theorem arrangedFields_eq (style : Style) (fields : List (Text × Json)) :
    arrangedFields style fields = fields.map fun p ↦ (p.1, arranged style p.2) := by
  induction fields with
  | nil => rw [arrangedFields, List.map_nil]
  | cons p fields ih => rw [arrangedFields, ih, List.map_cons]

theorem arranged_object (style : Style) (fields : List (Text × Json)) :
    arranged style (object fields) =
      object ((style.order fields).map fun p ↦ (p.1, arranged style p.2)) := by
  rw [arranged, arrangedFields_eq, order_map]

theorem writeItems_eq (style : Style) (items : List Json) :
    writeItems style items = items.map (write style) := by
  induction items with
  | nil => rw [writeItems, List.map_nil]
  | cons item items ih => rw [writeItems, ih, List.map_cons]

theorem writeFields_eq (style : Style) (fields : List (Text × Json)) :
    writeFields style fields = fields.map fun p ↦ (p.1, write style p.2) := by
  induction fields with
  | nil => rw [writeFields, List.map_nil]
  | cons p fields ih => rw [writeFields, ih, List.map_cons]

theorem write_list (style : Style) (items : List Json) :
    write style (list items) = CodePoint.ofChar '[' ::
      (Text.join style.betweenItems (items.map (write style)) ++ [CodePoint.ofChar ']']) := by
  rw [write, writeItems_eq]
  rfl

def fieldText (style : Style) (p : Text × Json) : Text :=
  writeText style.asciiOnly p.1 ++ style.afterKey ++ write style p.2

theorem write_object (style : Style) (fields : List (Text × Json)) :
    write style (object fields) = CodePoint.ofChar '\x7b' ::
      (Text.join style.betweenItems ((style.order fields).map (fieldText style)) ++
        [CodePoint.ofChar '\x7d']) := by
  rw [write, writeFields_eq]
  have h : (if style.sortedKeys then sortFields (fields.map fun p ↦ (p.1, write style p.2))
      else fields.map fun p ↦ (p.1, write style p.2)) =
      (style.order fields).map fun p ↦ (p.1, write style p.2) := order_map style _ fields
  simp only [h, List.map_map]
  rfl

/-- A document without floating-point numbers, whose integers are not too long, whose texts are
legible, whose objects have distinct keys, and that nests at most so deep. -/
inductive Readable (asciiOnly : Bool) : (depth : Nat) → Json → Prop
  | null {depth : Nat} : Readable asciiOnly depth null
  | bool {depth : Nat} (b : Bool) : Readable asciiOnly depth (bool b)
  | int {depth : Nat} (n : Int) (h : n.natAbs < Nat.pow 10 Numeral.digitLimit) :
      Readable asciiOnly depth (int n)
  | text {depth : Nat} (t : Text) (h : Legible asciiOnly t) : Readable asciiOnly depth (text t)
  | list {depth : Nat} (items : List Json) (h : ∀ item ∈ items, Readable asciiOnly depth item) :
      Readable asciiOnly (depth + 1) (list items)
  | object {depth : Nat} (fields : List (Text × Json)) (distinct : (fields.map (·.1)).Nodup)
      (keys : ∀ p ∈ fields, Legible asciiOnly p.1)
      (values : ∀ p ∈ fields, Readable asciiOnly depth p.2) :
      Readable asciiOnly (depth + 1) (object fields)

theorem starts_writeText (asciiOnly : Bool) (t : Text) : Starts (writeText asciiOnly t) :=
  ⟨CodePoint.ofChar '"', _, List.append_nil _ ▸ writeText_append asciiOnly t [], by decide⟩

theorem starts_ofInt (n : Int) : Starts (Text.ofInt n) := by
  rcases ofInt_cases n with ⟨d, t, h, hd⟩ | ⟨d, t, h, -⟩
  · exact ⟨d, t, h, isOpening_of_digit hd⟩
  · exact ⟨_, _, h, by decide⟩

theorem starts_join {separator t : Text} (ht : Starts t) (ts : List Text) :
    Starts (Text.join separator (t :: ts)) := by
  cases ts with
  | nil =>
    rw [Text.join_singleton]
    exact ht
  | cons u us =>
    rw [Text.join_cons_cons]
    exact ht.append _

theorem Readable.starts {asciiOnly : Bool} {depth : Nat} {j : Json}
    (h : Readable asciiOnly depth j) (style : Style) : Starts (write style j) := by
  cases h with
  | null => exact ⟨CodePoint.ofChar 'n', Text.ofString "ull", by rw [write]; rfl, by decide⟩
  | bool b =>
    cases b
    · exact ⟨CodePoint.ofChar 'f', Text.ofString "alse", by rw [write]; rfl, by decide⟩
    · exact ⟨CodePoint.ofChar 't', Text.ofString "rue", by rw [write]; rfl, by decide⟩
  | int n =>
    rw [write]
    exact starts_ofInt n
  | text t =>
    rw [write]
    exact starts_writeText _ t
  | list items => exact ⟨_, _, write_list style items, by decide⟩
  | object fields => exact ⟨_, _, write_object style fields, by decide⟩

theorem length_le_join_map {α : Type} (separator : Text) {write : α → Text} {items : List α}
    (h : ∀ x ∈ items, Starts (write x)) :
    items.length ≤ (Text.join separator (items.map write)).length := by
  have longer := Text.length_join_ge separator (items.map write) fun t ht ↦ by
    obtain ⟨x, hx, rfl⟩ := List.mem_map.1 ht
    exact (h x hx).length_pos
  rwa [List.length_map] at longer

theorem skipSpace_gap {gap t : Text} (hspace : ∀ c ∈ gap, isSpace c = true) (ht : Starts t)
    (rest : Text) : skipSpace (gap ++ (t ++ rest)) = t ++ rest := by
  rw [skipSpace_append hspace]
  exact (ht.append rest).skipSpace_eq

theorem skipSpace_cons {c : CodePoint} (h : isSpace c = false) (t : Text) :
    skipSpace (c :: t) = c :: t := by
  simp [skipSpace, h]

theorem starts_fieldText (style : Style) (p : Text × Json) : Starts (fieldText style p) :=
  ((starts_writeText style.asciiOnly p.1).append _).append _

section

variable {style : Style} {item : Text → Step Json} {after : Json → Json} {bound : Nat}

/-- Can a reader take what is written of a value, with something that may follow it? -/
def Takes (item : Text → Step Json) (style : Style) (after : Json → Json) (j : Json) : Prop :=
  Starts (write style j) ∧
    ∀ rest, Ends rest → item (write style j ++ rest) = .ok (after j, rest)

theorem readItems_join (hs : style.Sound) (items : List Json) (hne : items ≠ [])
    (hr : ∀ j ∈ items, Takes item style after j) (done : List Json) {fuel : Nat}
    (hf : items.length ≤ fuel) (rest : Text) :
    readItems item done fuel (Text.join style.betweenItems (items.map (write style)) ++
      CodePoint.ofChar ']' :: rest) = .ok (.list (done.reverse ++ items.map after), rest) := by
  obtain ⟨gap, hgap, hspace⟩ := hs.comma
  induction items generalizing done fuel with
  | nil => exact absurd rfl hne
  | cons j items ih =>
    obtain ⟨fuel, rfl⟩ : ∃ k, fuel = k + 1 := ⟨fuel - 1, by simp at hf; omega⟩
    have hj := (hr j (by simp)).2
    cases items with
    | nil =>
      rw [List.map_singleton, Text.join_singleton, readItems, hj _ (ends_bracket rest)]
      simp [skipSpace_cons (by decide : isSpace (CodePoint.ofChar ']') = false)]
    | cons j' items =>
      have hstart := (hr j' (by simp)).1
      have hnext := ih (by simp) (fun x hx ↦ hr x (by simp [hx])) (after j :: done)
        (by simpa using hf)
      have hnextStart : Starts (Text.join style.betweenItems ((j' :: items).map (write style))) :=
        starts_join hstart _
      rw [List.map_cons, List.map_cons, Text.join_cons_cons, hgap, List.append_assoc,
        List.cons_append, List.cons_append, List.append_assoc, readItems, hj _ (ends_comma _)]
      simp only [skipSpace_cons (by decide : isSpace (CodePoint.ofChar ',') = false),
        (by decide : CodePoint.ofChar ',' ≠ CodePoint.ofChar ']'), if_false, if_true]
      rw [← List.map_cons, ← hgap, skipSpace_gap hspace hnextStart, hnext]
      simp

theorem readKey_writeText (hs : style.Sound) {key : Text} (hk : Legible style.asciiOnly key)
    (hb : key.length < bound) {t : Text} (ht : Starts t) :
    readKey bound (writeText style.asciiOnly key ++ (style.afterKey ++ t)) = .ok (key, t) := by
  obtain ⟨gap, hgap, hspace⟩ := hs.colon
  rw [writeText_append, readKey, if_pos rfl, readString_flatMap hk _ [] hb, hgap]
  simp only [List.cons_append, skipSpace_cons (by decide : isSpace (CodePoint.ofChar ':') = false),
    if_true, List.reverse_nil, List.nil_append]
  rw [skipSpace_append hspace, ht.skipSpace_eq]

theorem readFields_join (hs : style.Sound) (fields : List (Text × Json)) (hne : fields ≠ [])
    (hk : ∀ p ∈ fields, Legible style.asciiOnly p.1 ∧ p.1.length < bound)
    (hr : ∀ p ∈ fields, Takes item style after p.2) (done : List (Text × Json))
    (hd : ((done ++ fields).map (·.1)).Nodup) {fuel : Nat} (hf : fields.length ≤ fuel)
    (rest : Text) :
    readFields item bound done fuel (Text.join style.betweenItems (fields.map (fieldText style)) ++
      CodePoint.ofChar '\x7d' :: rest) =
        .ok (.object (done ++ fields.map fun p ↦ (p.1, after p.2)), rest) := by
  obtain ⟨gap, hgap, hspace⟩ := hs.comma
  induction fields generalizing done fuel with
  | nil => exact absurd rfl hne
  | cons p fields ih =>
    obtain ⟨fuel, rfl⟩ : ∃ k, fuel = k + 1 := ⟨fuel - 1, by simp at hf; omega⟩
    obtain ⟨hlegible, hlength⟩ := hk p (by simp)
    obtain ⟨hstart, hvalue⟩ := hr p (by simp)
    have hput : Entries.put done p.1 (after p.2) = done ++ [(p.1, after p.2)] := by
      refine Entries.put_of_not_mem (?_) _
      intro hmem
      rw [List.map_append, List.nodup_append] at hd
      exact hd.2.2 p.1 hmem p.1 (by simp) rfl
    have hkey : ∀ t, readKey bound (fieldText style p ++ t) = .ok (p.1, write style p.2 ++ t) := by
      intro t
      rw [fieldText, List.append_assoc, List.append_assoc]
      exact readKey_writeText hs hlegible hlength (hstart.append t)
    cases fields with
    | nil =>
      rw [List.map_singleton, Text.join_singleton, readFields, hkey]
      simp only [hvalue _ (ends_brace rest), hput]
      simp [skipSpace_cons (by decide : isSpace (CodePoint.ofChar '\x7d') = false)]
    | cons q fields =>
      have hnext := ih (by simp) (fun x hx ↦ hk x (by simp [hx])) (fun x hx ↦ hr x (by simp [hx]))
        (done ++ [(p.1, after p.2)]) (by simpa using hd) (by simpa using hf)
      have hnextStart : Starts (Text.join style.betweenItems ((q :: fields).map (fieldText style))) :=
        starts_join (starts_fieldText style q) _
      rw [List.map_cons, List.map_cons, Text.join_cons_cons, hgap, List.append_assoc,
        List.cons_append, List.cons_append, List.append_assoc, readFields, hkey]
      simp only [hvalue _ (ends_comma _), hput,
        skipSpace_cons (by decide : isSpace (CodePoint.ofChar ',') = false),
        (by decide : CodePoint.ofChar ',' ≠ CodePoint.ofChar '\x7d'), if_false, if_true]
      rw [← List.map_cons, ← hgap, skipSpace_gap hspace hnextStart, hnext]
      simp

end

theorem readValue_scalar {c : CodePoint} {t : Text} (h1 : c ≠ CodePoint.ofChar '"')
    (h2 : c ≠ CodePoint.ofChar '[') (h3 : c ≠ CodePoint.ofChar '\x7b') (bound depth : Nat) :
    readValue bound depth (c :: t) = readScalar (c :: t) := by
  rw [readValue.eq_def]
  simp only [h1, h2, h3, if_false]

theorem readValue_ofInt (n : Int) (rest : Text) (bound depth : Nat) :
    readValue bound depth (Text.ofInt n ++ rest) = readNumber (Text.ofInt n ++ rest) := by
  rw [← readScalar_ofInt]
  rcases ofInt_cases n with ⟨d, t, h, hd⟩ | ⟨d, t, h, -⟩
  · have other : ∀ letter : Char, (CodePoint.ofChar letter).isAsciiDigit = false →
        d ≠ CodePoint.ofChar letter := by
      rintro letter hl rfl
      exact absurd (hl.symm.trans hd) Bool.false_ne_true
    rw [h, List.cons_append]
    exact readValue_scalar (other _ rfl) (other _ rfl) (other _ rfl) bound depth
  · rw [h, List.cons_append]
    exact readValue_scalar (by decide) (by decide) (by decide) bound depth

theorem readValue_list {bound depth : Nat} {style : Style} (hs : style.Sound) (items : List Json)
    (hr : ∀ j ∈ items, Takes (readValue bound depth) style (arranged style) j)
    (hb : items.length ≤ bound) (rest : Text) :
    readValue bound (depth + 1) (write style (list items) ++ rest) =
      .ok (arranged style (list items), rest) := by
  rw [write_list, arranged, arrangedItems_eq, readValue.eq_def]
  simp only [List.cons_append, List.append_assoc, List.nil_append, show CodePoint.ofChar '[' ≠
    CodePoint.ofChar '"' by decide, if_false, if_true]
  cases items with
  | nil => simp [Text.join, skipSpace, show isSpace (CodePoint.ofChar ']') = false by decide]
  | cons j items =>
    have hstart : Starts (Text.join style.betweenItems ((j :: items).map (write style)) ++
        CodePoint.ofChar ']' :: rest) := (starts_join (hr j (by simp)).1 _).append _
    have hread := readItems_join hs (j :: items) (by simp) hr [] hb rest
    obtain ⟨c, t, hct, hc⟩ := hstart
    rw [Starts.skipSpace_eq ⟨c, t, hct, hc⟩]
    rw [hct] at hread ⊢
    simpa only [hc.2.1, if_false, List.reverse_nil, List.nil_append] using hread

theorem readValue_object {bound depth : Nat} {style : Style} (hs : style.Sound)
    (fields : List (Text × Json)) (hd : (fields.map (·.1)).Nodup)
    (hk : ∀ p ∈ fields, Legible style.asciiOnly p.1 ∧ p.1.length < bound)
    (hr : ∀ p ∈ fields, Takes (readValue bound depth) style (arranged style) p.2)
    (hb : fields.length ≤ bound) (rest : Text) :
    readValue bound (depth + 1) (write style (object fields) ++ rest) =
      .ok (arranged style (object fields), rest) := by
  have hperm := order_perm style fields
  rw [write_object, arranged_object, readValue.eq_def]
  simp only [List.cons_append, List.append_assoc, List.nil_append, show CodePoint.ofChar '\x7b' ≠
    CodePoint.ofChar '"' by decide, show CodePoint.ofChar '\x7b' ≠ CodePoint.ofChar '[' by decide,
    if_false, if_true]
  generalize style.order fields = ordered at hperm ⊢
  cases ordered with
  | nil => simp [Text.join, skipSpace, show isSpace (CodePoint.ofChar '\x7d') = false by decide]
  | cons p ordered =>
    have hstart : Starts (Text.join style.betweenItems ((p :: ordered).map (fieldText style)) ++
        CodePoint.ofChar '\x7d' :: rest) := (starts_join (starts_fieldText style p) _).append _
    have hread := readFields_join hs (p :: ordered) (by simp)
      (fun q hq ↦ hk q (hperm.mem_iff.1 hq)) (fun q hq ↦ hr q (hperm.mem_iff.1 hq)) []
      ((hperm.map _).nodup_iff.2 hd) (hperm.length_eq ▸ hb) rest
    obtain ⟨c, t, hct, hc⟩ := hstart
    rw [Starts.skipSpace_eq ⟨c, t, hct, hc⟩]
    rw [hct] at hread ⊢
    simpa only [hc.2.2, if_false, List.nil_append] using hread

theorem readValue_write {style : Style} (hs : style.Sound) {depth : Nat} {j : Json}
    (hj : Readable style.asciiOnly depth j) {bound : Nat} (hb : (write style j).length < bound)
    {rest : Text} (hr : Ends rest) :
    readValue bound depth (write style j ++ rest) = .ok (arranged style j, rest) := by
  induction hj generalizing rest with
  | null =>
    rw [write, arranged]
    exact readValue_scalar (by decide) (by decide) (by decide) bound _
  | bool b =>
    cases b <;> rw [write, arranged]
    · exact readValue_scalar (by decide) (by decide) (by decide) bound _
    · exact readValue_scalar (by decide) (by decide) (by decide) bound _
  | int n hn =>
    rw [write, arranged, readValue_ofInt]
    exact readNumber_ofInt hn hr
  | text t ht =>
    rw [write] at hb
    have hl := length_lt_writeText style.asciiOnly t
    rw [write, arranged, writeText_append, readValue.eq_def]
    simp only [if_true, readString_flatMap ht rest [] (show t.length < bound by omega)]
    rfl
  | list items h ih =>
    rw [write_list] at hb
    simp only [List.length_cons, List.length_append, List.length_nil] at hb
    have hcount := length_le_join_map style.betweenItems fun j hj ↦ (h j hj).starts style
    refine readValue_list hs items (fun j hj ↦ ⟨(h j hj).starts style, ?_⟩)
      (by omega) rest
    intro rest hr
    have hsub := Text.length_le_join style.betweenItems (List.mem_map_of_mem (f := write style) hj)
    exact ih j hj (by omega) hr
  | object fields distinct keys values ih =>
    have hperm := order_perm style fields
    rw [write_object] at hb
    simp only [List.length_cons, List.length_append, List.length_nil] at hb
    have hcount := length_le_join_map style.betweenItems
      fun p (_ : p ∈ style.order fields) ↦ starts_fieldText style p
    rw [hperm.length_eq] at hcount
    have hsub : ∀ p ∈ fields, p.1.length + (write style p.2).length < bound := by
      intro p hp
      have h1 := Text.length_le_join style.betweenItems
        (List.mem_map_of_mem (f := fieldText style) (hperm.mem_iff.2 hp))
      have h2 := length_lt_writeText style.asciiOnly p.1
      simp only [fieldText, List.length_append] at h1
      omega
    refine readValue_object hs fields distinct (fun p hp ↦ ⟨keys p hp, ?_⟩)
      (fun p hp ↦ ⟨(values p hp).starts style, ?_⟩) (by omega) rest
    · have := hsub p hp
      omega
    · intro rest hr
      have := hsub p hp
      exact ih p hp (by omega) hr

theorem ofText_write {style : Style} (hs : style.Sound) {j : Json}
    (hj : Readable style.asciiOnly nestingLimit j) :
    ofText (write style j) = .ok (arranged style j) := by
  have hread : readValue ((write style j).length + 1) nestingLimit (write style j ++ []) = _ :=
    readValue_write hs hj (Nat.lt_succ_self _) ends_nil
  rw [List.append_nil] at hread
  rw [ofText, (hj.starts style).skipSpace_eq, hread]
  rfl

end Json

end ShardVault
