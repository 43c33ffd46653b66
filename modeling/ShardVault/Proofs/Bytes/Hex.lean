import ShardVault.Proofs.Bytes.Written

namespace ShardVault

def CodePoint.IsHexDigit (c : CodePoint) : Prop :=
  c.within '0' '9' = true ∨ c.within 'a' 'f' = true ∨ c.within 'A' 'F' = true

theorem CodePoint.isHexDigit_iff {c : CodePoint} :
    c.IsHexDigit ↔ ∃ n, c.hexValue? = some n := by
  have digit : c.within '0' '9' = true ↔ 48 ≤ c.val ∧ c.val ≤ 57 := within_iff
  have small : c.within 'a' 'f' = true ↔ 97 ≤ c.val ∧ c.val ≤ 102 := within_iff
  have capital : c.within 'A' 'F' = true ↔ 65 ≤ c.val ∧ c.val ≤ 70 := within_iff
  simp only [IsHexDigit, digit, small, capital, hexValue?_eq_some_iff]
  constructor
  · rintro (h | h | h)
    · exact ⟨c.val - 48, by omega⟩
    · exact ⟨c.val - 87, by omega⟩
    · exact ⟨c.val - 55, by omega⟩
  · rintro ⟨n, h⟩
    omega

namespace Hex

def lowered (c : CodePoint) : CodePoint :=
  if c.within 'A' 'F' then CodePoint.ofNat (c.val + 32) else c

/-- The digits of a text, whatever their case, are the written form of some bytes. -/
def Spells (t : Text) (bs : Bytes) : Prop :=
  t.map lowered = encode bs

variable {t : Text} {bs done result : Bytes} {c : CodePoint} {n : Nat}

theorem val_lowered (c : CodePoint) :
    (lowered c).val = if 65 ≤ c.val ∧ c.val ≤ 70 then c.val + 32 else c.val := by
  have capital : c.within 'A' 'F' = true ↔ 65 ≤ c.val ∧ c.val ≤ 70 := CodePoint.within_iff
  simp only [lowered, capital]
  split
  · exact CodePoint.val_ofNat (by omega)
  · rfl

theorem lowered_eq_iff (h : n < 16) :
    lowered c = CodePoint.ofHexDigit n ↔ c.hexValue? = some n := by
  rw [Fin.ext_iff, val_lowered, val_ofHexDigit h, CodePoint.hexValue?_eq_some_iff]
  split
  · split
    · omega
    · omega
  · split
    · omega
    · omega

theorem spells_nil : Spells [] bs ↔ bs = [] := by
  rw [Spells, List.map_nil, eq_comm, ← List.length_eq_zero_iff, length_encode,
    ← List.length_eq_zero_iff]
  omega

theorem spells_cons {hi lo : CodePoint} {rest : Text} {b : UInt8} :
    Spells (hi :: lo :: rest) (b :: bs) ↔
      hi.hexValue? = some (b.toNat / 16) ∧ lo.hexValue? = some (b.toNat % 16) ∧
        Spells rest bs := by
  have bound := b.toNat_lt
  rw [← lowered_eq_iff (by omega), ← lowered_eq_iff (by omega)]
  simp [Spells, encode]

theorem Spells.length_eq (h : Spells t bs) : t.length = 2 * bs.length := by
  have same := congrArg List.length h
  rwa [List.length_map, length_encode] at same

theorem Spells.exists_cons (h : Spells (c :: t) bs) : ∃ b bs', bs = b :: bs' := by
  cases bs with
  | nil => cases h.length_eq
  | cons b bs' => exact ⟨b, bs', rfl⟩

theorem not_spells_single : ¬ Spells [c] bs := by
  intro h
  have odd := h.length_eq
  rw [List.length_singleton] at odd
  omega

theorem spells_pair {hi lo : CodePoint} {rest : Text} {h l : Nat} (high : hi.hexValue? = some h)
    (low : lo.hexValue? = some l) : Spells (hi :: lo :: rest) bs ↔
      ∃ bs', bs = UInt8.ofNat (h * 16 + l) :: bs' ∧ Spells rest bs' := by
  have hb := CodePoint.hexValue?_lt high
  have lb := CodePoint.hexValue?_lt low
  have whole : (UInt8.ofNat (h * 16 + l)).toNat = h * 16 + l := by
    rw [UInt8.toNat_ofNat']
    omega
  constructor
  · intro spells
    obtain ⟨b, bs', rfl⟩ := spells.exists_cons
    rw [spells_cons, high, low, Option.some.injEq, Option.some.injEq] at spells
    obtain ⟨first, second, spells⟩ := spells
    have same : b = UInt8.ofNat (h * 16 + l) := UInt8.toNat_inj.1 (by omega)
    exact ⟨bs', by rw [same], spells⟩
  · rintro ⟨bs', rfl, spells⟩
    rw [spells_cons, whole, high, low]
    exact ⟨congrArg some (by omega), congrArg some (by omega), spells⟩

theorem decodeOnto_eq_some_iff (done : Bytes) (t : Text) :
    decodeOnto done t = some result ↔ ∃ bs, result = done.reverse ++ bs ∧ Spells t bs := by
  fun_induction decodeOnto done t with
  | case1 done => simp [spells_nil, eq_comm]
  | case2 done c => simp [not_spells_single]
  | case3 done hi lo rest h l low high ih =>
    rw [ih]
    simp only [spells_pair high low, List.reverse_cons, List.append_assoc, List.singleton_append]
    constructor
    · rintro ⟨bs, rfl, spells⟩
      exact ⟨_, rfl, bs, rfl, spells⟩
    · rintro ⟨_, rfl, bs, rfl, spells⟩
      exact ⟨bs, rfl, spells⟩
  | case4 done hi lo rest other =>
    refine iff_of_false nofun ?_
    rintro ⟨bs, -, spells⟩
    obtain ⟨b, bs', rfl⟩ := spells.exists_cons
    obtain ⟨high, low, -⟩ := spells_cons.1 spells
    exact other _ _ high low

theorem decode_eq_some_iff : decode t = some bs ↔ Spells t bs := by
  rw [decode, decodeOnto_eq_some_iff]
  simp

theorem exists_spells_iff (t : Text) :
    (∃ bs, Spells t bs) ↔ t.length % 2 = 0 ∧ ∀ c ∈ t, c.IsHexDigit := by
  match t with
  | [] => simp [spells_nil]
  | [c] => simp [not_spells_single]
  | hi :: lo :: rest =>
    have pairs : (hi :: lo :: rest).length % 2 = rest.length % 2 := by
      simp only [List.length_cons]
      omega
    have ih := exists_spells_iff rest
    rw [pairs, List.forall_mem_cons, List.forall_mem_cons, CodePoint.isHexDigit_iff,
      CodePoint.isHexDigit_iff]
    constructor
    · rintro ⟨bs, spells⟩
      obtain ⟨b, bs', rfl⟩ := spells.exists_cons
      obtain ⟨high, low, spells⟩ := spells_cons.1 spells
      obtain ⟨even, digits⟩ := ih.1 ⟨bs', spells⟩
      exact ⟨even, ⟨_, high⟩, ⟨_, low⟩, digits⟩
    · rintro ⟨even, ⟨h, high⟩, ⟨l, low⟩, digits⟩
      obtain ⟨bs', spells⟩ := ih.2 ⟨even, digits⟩
      exact ⟨_, (spells_pair high low).2 ⟨bs', rfl, spells⟩⟩

end Hex

end ShardVault
