import ShardVault.Json.Fields
import ShardVault.Proofs.Json.RoundTrip

namespace ShardVault

namespace Json

variable {style : Style} {fields : List (Text × Json)} {key : Text}

def readFieldsOf (style : Style) (fields : List (Text × Json)) : Entries Json :=
  (style.order fields).map fun p ↦ (p.1, arranged style p.2)

theorem get?_readFieldsOf (hd : (fields.map (·.1)).Nodup) :
    (readFieldsOf style fields).get? key = (Entries.get? fields key).map (arranged style) := by
  rw [readFieldsOf, Entries.get?_map]
  congr 1
  exact (Entries.get?_perm (order_perm style fields).symm hd key).symm

theorem requireText_readFieldsOf (hd : (fields.map (·.1)).Nodup) {t : Text}
    (h : Entries.get? fields key = some (text t)) :
    requireText (readFieldsOf style fields) key = .ok t := by
  simp only [requireText, get?_readFieldsOf hd, h, Option.map_some, arranged]

theorem requireInt_readFieldsOf (hd : (fields.map (·.1)).Nodup) {n : Int}
    (h : Entries.get? fields key = some (int n)) :
    requireInt (readFieldsOf style fields) key = .ok n := by
  simp only [requireInt, get?_readFieldsOf hd, h, Option.map_some, arranged]

theorem requireList_readFieldsOf (hd : (fields.map (·.1)).Nodup) {items : List Json}
    (h : Entries.get? fields key = some (list items)) :
    requireList (readFieldsOf style fields) key = .ok (items.map (arranged style)) := by
  simp only [requireList, get?_readFieldsOf hd, h, Option.map_some, arranged, arrangedItems_eq]

theorem requireText?_readFieldsOf (hd : (fields.map (·.1)).Nodup) {t : Text}
    (h : Entries.get? fields key = some (text t)) :
    requireText? (readFieldsOf style fields) key = .ok (some t) := by
  simp only [requireText?, get?_readFieldsOf hd, h, Option.map_some, arranged]

theorem requireText?_readFieldsOf_null (hd : (fields.map (·.1)).Nodup)
    (h : Entries.get? fields key = some null) :
    requireText? (readFieldsOf style fields) key = .ok none := by
  simp only [requireText?, get?_readFieldsOf hd, h, Option.map_some, arranged]

theorem areWritable_iff (items : List Json) :
    areWritable items = true ↔ ∀ item ∈ items, item.isWritable = true := by
  induction items with
  | nil => simp [areWritable]
  | cons item items ih => simp [areWritable, ih]

theorem fieldsWritable_iff (fields : List (Text × Json)) :
    fieldsWritable fields = true ↔ ∀ p ∈ fields, p.2.isWritable = true := by
  induction fields with
  | nil => simp [fieldsWritable]
  | cons p fields ih => simp [fieldsWritable, ih]

theorem isWritable_int_of_lt {n : Int} {k : Nat} (hk : k ≤ Numeral.digitLimit)
    (h : n.natAbs < Nat.pow 10 k) : (int n).isWritable = true := by
  have grows : ∀ {m : Nat}, k ≤ m → Nat.pow 10 k ≤ Nat.pow 10 m :=
    Nat.pow_le_pow_right (by decide)
  rw [isWritable, decide_eq_true_iff]
  exact Nat.lt_of_lt_of_le h (grows hk)

theorem isWritable_int {n : Int} (h : n.natAbs < Nat.pow 10 20) : (int n).isWritable = true :=
  isWritable_int_of_lt (by decide) h

theorem isWritable_list (items : List Json) : (list items).isWritable = areWritable items := by
  rw [isWritable]

theorem isWritable_object (fields : List (Text × Json)) :
    (object fields).isWritable = fieldsWritable fields := by
  rw [isWritable]

theorem isWritable_text (t : Text) : (text t).isWritable = true := by
  simp [isWritable]

/-- Not an object, and no floating-point number or truth value; a list holds texts only. -/
def IsFlat : Json → Prop
  | null | int _ | text _ => True
  | list items => ∃ ts : List Text, items = ts.map text
  | bool _ | real _ | object _ => False

theorem IsFlat.readable {j : Json} (h : j.IsFlat) (hw : j.isWritable = true) (depth : Nat) :
    Readable false (depth + 1) j := by
  cases j with
  | null => exact .null
  | int n => exact .int n (by simpa [isWritable] using hw)
  | text t => exact .text t nofun
  | list items =>
    obtain ⟨ts, rfl⟩ := h
    refine .list _ ?_
    intro item hi
    obtain ⟨t, -, rfl⟩ := List.mem_map.1 hi
    exact .text t nofun
  | bool b => exact h.elim
  | real x => exact h.elim
  | object fields => exact h.elim

theorem readable_object {fields : List (Text × Json)} (hd : (fields.map (·.1)).Nodup)
    (hf : ∀ p ∈ fields, p.2.IsFlat) (hw : (object fields).isWritable = true) :
    Readable false nestingLimit (object fields) := by
  rw [isWritable_object, fieldsWritable_iff] at hw
  exact .object fields hd (fun _ _ ↦ nofun) fun p hp ↦ (hf p hp).readable (hw p hp) _

theorem encode_eq_ok_iff {style : Style} {j : Json} {t : Text} :
    encode style j = .ok t ↔ j.isWritable = true ∧ write style j = t := by
  unfold encode
  split <;> simp_all

end Json

end ShardVault
