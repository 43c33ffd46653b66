import ShardVault.Proofs.Text.Digits
import ShardVault.Text.Encoded
import ShardVault.Text.Encoding

namespace ShardVault.Text

theorem isAscii_of_digits {t : Text} (h : ∀ c ∈ t, c.isAsciiDigit = true) :
    ∀ c ∈ t, c.val < 0x80 := by
  intro c hc
  have := (CodePoint.isAsciiDigit_iff c).1 (h c hc)
  omega

theorem val_lt_ofString {s : String} {bound : Nat} (h : s.toList.all (·.toNat < bound) = true) :
    ∀ c ∈ ofString s, c.val < bound := by
  intro c hc
  obtain ⟨letter, hl, rfl⟩ := List.mem_map.1 hc
  rw [CodePoint.val_ofChar]
  simpa using List.all_eq_true.1 h letter hl

theorem isScalar_of_ascii {t : Text} (h : ∀ c ∈ t, c.val < 0x80) : t.isScalar = true := by
  simp only [isScalar, List.all_eq_true, Bool.not_eq_true', CodePoint.isSurrogate,
    Bool.and_eq_false_iff, decide_eq_false_iff_not]
  intro c hc
  have := h c hc
  omega

@[simp] theorem isScalar_append (s t : Text) :
    (s ++ t).isScalar = (s.isScalar && t.isScalar) := by
  simp [isScalar]

@[simp] theorem isScalar_cons (c : CodePoint) (t : Text) :
    isScalar (c :: t) = (!c.isSurrogate && t.isScalar) := rfl

end ShardVault.Text

namespace ShardVault.Utf8

def Reads (s : Surrogates) (c : CodePoint) : Prop :=
  s = .refused → c.isSurrogate = false

theorem point?_self {s : Surrogates} {c : CodePoint} (hc : Reads s c) {least n : Nat}
    (hn : n = c.val) (hl : least ≤ c.val) : point? s least n = some c := by
  subst hn
  have hs : (s = .refused && c.isSurrogate) = false := by
    cases s with
    | refused => simp [hc rfl]
    | accepted => rfl
  simp [point?, c.isLt, Nat.not_lt.2 hl, hs]

theorem toNat_byte {n : Nat} (h : n < 256) : (UInt8.ofNat n).toNat = n :=
  UInt8.toNat_ofNat_of_lt' h

theorem tail?_ofNat {n : Nat} (h : n < 64) : tail? (UInt8.ofNat (0x80 + n)) = some n := by
  simp only [tail?, toNat_byte (show 0x80 + n < 256 by omega)]
  rw [if_pos (by omega)]
  congr 1
  omega

section

variable {s : Surrogates} {p : CodePoint} {done : Text} {rest : Bytes} {a b c d : UInt8}
  {y z w : Nat}

theorem decodeOnto_one (ha : a.toNat = p.val) (hp : p.val < 0x80) :
    decodeOnto s done (a :: rest) = decodeOnto s (p :: done) rest := by
  have h : CodePoint.ofNat a.toNat = p := by
    rw [ha]
    exact Fin.ext (Nat.mod_eq_of_lt p.isLt)
  rw [decodeOnto.eq_def]
  have h1 : a < 0x80 := by
    rw [UInt8.lt_iff_toNat_lt, ha]
    exact hp
  simp only [h1, if_true, h]

theorem decodeOnto_two (h1 : 0xC0 ≤ a.toNat) (h2 : a.toNat < 0xE0) (hb : tail? b = some y)
    (hp : point? s 0x80 ((a.toNat - 0xC0) * 64 + y) = some p) :
    decodeOnto s done (a :: b :: rest) = decodeOnto s (p :: done) rest := by
  have h0 : ¬ a < 0x80 := by
    rw [UInt8.lt_iff_toNat_lt]
    exact Nat.not_lt.2 (Nat.le_trans (by decide) h1)
  have h3 : (0xC0 ≤ a && a < 0xE0) = true := by
    simp only [UInt8.lt_iff_toNat_lt, UInt8.le_iff_toNat_le, Bool.and_eq_true, decide_eq_true_eq]
    exact ⟨h1, h2⟩
  have h4 : ((tail? b).bind fun y ↦ point? s 0x80 ((a.toNat - 0xC0) * 64 + y)) = some p := by
    rw [hb, Option.bind_some, hp]
  rw [decodeOnto.eq_def]
  simp only [h0, h3, if_false, if_true, h4]

theorem decodeOnto_three (h1 : 0xE0 ≤ a.toNat) (h2 : a.toNat < 0xF0) (hb : tail? b = some y)
    (hc : tail? c = some z)
    (hp : point? s 0x800 ((a.toNat - 0xE0) * 4096 + y * 64 + z) = some p) :
    decodeOnto s done (a :: b :: c :: rest) = decodeOnto s (p :: done) rest := by
  have h0 : ¬ a < 0x80 := by
    rw [UInt8.lt_iff_toNat_lt]
    exact Nat.not_lt.2 (Nat.le_trans (by decide) h1)
  have h3 : (0xC0 ≤ a && a < 0xE0) = false := by
    simp only [UInt8.lt_iff_toNat_lt, Bool.and_eq_false_iff, decide_eq_false_iff_not]
    exact .inr (Nat.not_lt.2 h1)
  have h4 : (0xE0 ≤ a && a < 0xF0) = true := by
    simp only [UInt8.lt_iff_toNat_lt, UInt8.le_iff_toNat_le, Bool.and_eq_true, decide_eq_true_eq]
    exact ⟨h1, h2⟩
  have h5 : ((tail? b).bind fun y ↦ (tail? c).bind fun z ↦
      point? s 0x800 ((a.toNat - 0xE0) * 4096 + y * 64 + z)) = some p := by
    rw [hb, Option.bind_some, hc, Option.bind_some, hp]
  rw [decodeOnto.eq_def]
  simp only [h0, h3, h4, if_false, if_true, h5, Bool.false_eq_true]

theorem decodeOnto_four (h1 : 0xF0 ≤ a.toNat) (hb : tail? b = some y) (hc : tail? c = some z)
    (hd : tail? d = some w)
    (hp : point? s 0x10000 ((a.toNat - 0xF0) * 262144 + y * 4096 + z * 64 + w) = some p) :
    decodeOnto s done (a :: b :: c :: d :: rest) = decodeOnto s (p :: done) rest := by
  have above : ∀ {k : UInt8}, k.toNat ≤ 0xF0 → ¬ a < k := by
    intro k hk
    rw [UInt8.lt_iff_toNat_lt]
    exact Nat.not_lt.2 (Nat.le_trans hk h1)
  have h3 : (0xC0 ≤ a && a < 0xE0) = false := by simp [above (k := 0xE0) (by decide)]
  have h4 : (0xE0 ≤ a && a < 0xF0) = false := by simp [above (k := 0xF0) (by decide)]
  have h5 : 0xF0 ≤ a := UInt8.le_iff_toNat_le.2 h1
  have h6 : ((tail? b).bind fun y ↦ (tail? c).bind fun z ↦ (tail? d).bind fun w ↦
      point? s 0x10000 ((a.toNat - 0xF0) * 262144 + y * 4096 + z * 64 + w)) = some p := by
    rw [hb, Option.bind_some, hc, Option.bind_some, hd, Option.bind_some, hp]
  rw [decodeOnto.eq_def]
  simp only [above (k := 0x80) (by decide), h3, h4, h5, if_false, if_true, h6, Bool.false_eq_true]

end

theorem decodeOnto_encodePoint {s : Surrogates} {c : CodePoint} (hc : Reads s c) (done : Text)
    (rest : Bytes) :
    decodeOnto s done (encodePoint c ++ rest) = decodeOnto s (c :: done) rest := by
  have hlt := c.isLt
  have low : ∀ n, tail? (UInt8.ofNat (0x80 + n % 64)) = some (n % 64) :=
    fun n ↦ tail?_ofNat (Nat.mod_lt n (by decide))
  simp only [encodePoint]
  split
  · next h => exact decodeOnto_one (toNat_byte (by omega)) h
  split
  · next h0 h =>
    have ha := toNat_byte (show 0xC0 + c.val / 64 < 256 by omega)
    refine decodeOnto_two (by omega) (by omega) (low _) (point?_self hc ?_ (by omega))
    rw [ha]
    omega
  split
  · next h0 h1 h =>
    have ha := toNat_byte (show 0xE0 + c.val / 4096 < 256 by omega)
    refine decodeOnto_three (by omega) (by omega) (low _) (low _) (point?_self hc ?_ (by omega))
    rw [ha]
    omega
  · next h0 h1 h2 =>
    have ha := toNat_byte (show 0xF0 + c.val / 262144 < 256 by omega)
    refine decodeOnto_four (by omega) (low _) (low _) (low _) (point?_self hc ?_ (by omega))
    rw [ha]
    omega

theorem decodeOnto_encodeAll {s : Surrogates} {t : Text} (ht : ∀ c ∈ t, Reads s c) (done : Text)
    (rest : Bytes) :
    decodeOnto s done (encodeAll t ++ rest) = decodeOnto s (t.reverse ++ done) rest := by
  induction t generalizing done with
  | nil => rfl
  | cons c t ih =>
    simp only [encodeAll, List.flatMap_cons, List.append_assoc] at ih ⊢
    rw [decodeOnto_encodePoint (ht c (by simp)), ih (fun x hx ↦ ht x (by simp [hx]))]
    simp

theorem reads_of_isScalar {t : Text} (ht : t.isScalar = true) (s : Surrogates) :
    ∀ c ∈ t, Reads s c := by
  intro c hc _
  simpa using List.all_eq_true.1 ht c hc

theorem decode_encodeAll {t : Text} (ht : t.isScalar = true) : decode (encodeAll t) = some t := by
  have h := decodeOnto_encodeAll (reads_of_isScalar ht .refused) [] []
  simpa [decode, decodeOnto] using h

theorem decodeOnto_accepted_encodeAll (t : Text) :
    decodeOnto .accepted [] (encodeAll t) = some t := by
  have h := decodeOnto_encodeAll (s := .accepted) (t := t) (by simp [Reads]) [] []
  simpa [decodeOnto] using h

theorem encodeAll_injective {s t : Text} (hs : s.isScalar = true) (ht : t.isScalar = true)
    (h : encodeAll s = encodeAll t) : s = t := by
  have he := decode_encodeAll hs
  rw [h, decode_encodeAll ht] at he
  exact (Option.some.inj he).symm

theorem isScalar_of_point? {least n : Nat} {c : CodePoint}
    (h : point? .refused least n = some c) : c.isSurrogate = false := by
  simp only [point?, decide_true, Bool.true_and] at h
  split at h
  · split at h
    · cases h
    split at h
    · cases h
    · next scalar => exact Option.some.inj h ▸ Bool.not_eq_true _ ▸ scalar
  · cases h

theorem isScalar_of_decodeOnto {done t : Text} {bs : Bytes} (hd : done.isScalar = true)
    (h : decodeOnto .refused done bs = some t) : t.isScalar = true := by
  have push {c : CodePoint} {done : Text} (hc : c.isSurrogate = false)
      (hd : done.isScalar = true) : Text.isScalar (c :: done) = true := by
    rw [Text.isScalar_cons, hc, hd]
    rfl
  fun_induction decodeOnto .refused done bs with
  | case1 done =>
    obtain rfl := Option.some.inj h
    simpa [Text.isScalar] using hd
  | case2 done a rest ascii ih =>
    refine ih (push ?_ hd) h
    have small : a.toNat < 0x80 := UInt8.lt_iff_toNat_lt.1 ascii
    have val : (CodePoint.ofNat a.toNat).val = a.toNat := Nat.mod_eq_of_lt (by omega)
    simp only [CodePoint.isSurrogate, val, Bool.and_eq_false_iff, decide_eq_false_iff_not]
    omega
  | case4 done a _ b rest _ c found ih =>
    obtain ⟨y, -, point⟩ := Option.bind_eq_some_iff.1 found
    exact ih (push (isScalar_of_point? point) hd) h
  | case7 done a _ b _ b' rest _ c found ih =>
    obtain ⟨y, -, found⟩ := Option.bind_eq_some_iff.1 found
    obtain ⟨z, -, point⟩ := Option.bind_eq_some_iff.1 found
    exact ih (push (isScalar_of_point? point) hd) h
  | case10 done a _ b _ b' _ b'' rest _ c found ih =>
    obtain ⟨y, -, found⟩ := Option.bind_eq_some_iff.1 found
    obtain ⟨z, -, found⟩ := Option.bind_eq_some_iff.1 found
    obtain ⟨w, -, point⟩ := Option.bind_eq_some_iff.1 found
    exact ih (push (isScalar_of_point? point) hd) h
  | _ => cases h

theorem isScalar_of_decode {t : Text} {bs : Bytes} (h : decode bs = some t) : t.isScalar = true :=
  isScalar_of_decodeOnto rfl h

theorem encodeAll_append (s t : Text) : encodeAll (s ++ t) = encodeAll s ++ encodeAll t := by
  simp [encodeAll]

theorem encodeAll_of_ascii {t : Text} (ht : ∀ c ∈ t, c.val < 0x80) :
    encodeAll t = t.map fun c ↦ UInt8.ofNat c.val := by
  induction t with
  | nil => rfl
  | cons c t ih =>
    have hc := ht c (by simp)
    simp only [encodeAll, List.flatMap_cons, List.map_cons] at ih ⊢
    rw [ih (fun x hx ↦ ht x (by simp [hx]))]
    simp [encodePoint, hc]

theorem length_encodePoint_le (c : CodePoint) : (encodePoint c).length ≤ 4 := by
  simp only [encodePoint]
  split
  · simp
  split
  · simp
  split
  · simp
  · simp

theorem length_encodeAll_le (t : Text) : (encodeAll t).length ≤ 4 * t.length := by
  induction t with
  | nil => exact Nat.le_refl 0
  | cons c t ih =>
    have := length_encodePoint_le c
    simp only [encodeAll, List.flatMap_cons, List.length_append, List.length_cons] at ih ⊢
    omega

theorem point?_eq_some {s : Surrogates} {least n : Nat} {c : CodePoint}
    (h : point? s least n = some c) : c.val = n ∧ least ≤ n := by
  unfold point? at h
  split at h
  · split at h
    · cases h
    next long =>
    split at h
    · cases h
    · obtain rfl := Option.some.inj h
      exact ⟨rfl, Nat.not_lt.1 long⟩
  · cases h

theorem tail?_eq_some {b : UInt8} {y : Nat} (h : tail? b = some y) :
    y < 64 ∧ UInt8.ofNat (0x80 + y) = b := by
  unfold tail? at h
  split at h
  · next high =>
    obtain rfl := Option.some.inj h
    refine ⟨Nat.mod_lt _ (by decide), ?_⟩
    apply UInt8.toNat_inj.1
    rw [toNat_byte (by omega)]
    omega
  · cases h

section

variable {a : UInt8} {c : CodePoint} {y z w : Nat}

theorem byte_eq {n : Nat} (h : n = a.toNat) : UInt8.ofNat n = a := by
  rw [h, UInt8.ofNat_toNat]

theorem encodePoint_one (h : a.toNat < 0x80) : encodePoint (CodePoint.ofNat a.toNat) = [a] := by
  have val : (CodePoint.ofNat a.toNat).val = a.toNat := Nat.mod_eq_of_lt (by omega)
  simp only [encodePoint, val, if_pos h, UInt8.ofNat_toNat]

theorem encodePoint_two (h1 : 0xC0 ≤ a.toNat) (h2 : a.toNat < 0xE0) (hy : y < 64)
    (val : c.val = (a.toNat - 0xC0) * 64 + y) (least : 0x80 ≤ c.val) :
    encodePoint c = [a, UInt8.ofNat (0x80 + y)] := by
  have ha : 0xC0 + c.val / 64 = a.toNat := by omega
  have hb : c.val % 64 = y := by omega
  simp only [encodePoint]
  rw [if_neg (Nat.not_lt.2 least), if_pos (by omega), byte_eq ha, hb]

theorem encodePoint_three (h1 : 0xE0 ≤ a.toNat) (h2 : a.toNat < 0xF0) (hy : y < 64) (hz : z < 64)
    (val : c.val = (a.toNat - 0xE0) * 4096 + y * 64 + z) (least : 0x800 ≤ c.val) :
    encodePoint c = [a, UInt8.ofNat (0x80 + y), UInt8.ofNat (0x80 + z)] := by
  have ha : 0xE0 + c.val / 4096 = a.toNat := by omega
  have hb : c.val / 64 % 64 = y := by omega
  have hc : c.val % 64 = z := by omega
  simp only [encodePoint]
  rw [if_neg (by omega), if_neg (Nat.not_lt.2 least), if_pos (by omega), byte_eq ha, hb, hc]

theorem encodePoint_four (h1 : 0xF0 ≤ a.toNat) (hy : y < 64) (hz : z < 64) (hw : w < 64)
    (val : c.val = (a.toNat - 0xF0) * 262144 + y * 4096 + z * 64 + w) (least : 0x10000 ≤ c.val) :
    encodePoint c =
      [a, UInt8.ofNat (0x80 + y), UInt8.ofNat (0x80 + z), UInt8.ofNat (0x80 + w)] := by
  have ha : 0xF0 + c.val / 262144 = a.toNat := by omega
  have hb : c.val / 4096 % 64 = y := by omega
  have hc : c.val / 64 % 64 = z := by omega
  have hd : c.val % 64 = w := by omega
  simp only [encodePoint]
  rw [if_neg (by omega), if_neg (by omega), if_neg (Nat.not_lt.2 least), byte_eq ha, hb, hc, hd]

end

theorem encodeAll_of_decodeOnto {s : Surrogates} {done t : Text} {bs : Bytes}
    (h : decodeOnto s done bs = some t) : encodeAll t = encodeAll done.reverse ++ bs := by
  have push {c : CodePoint} {done : Text} {own rest : Bytes} (hc : encodePoint c = own)
      (ht : encodeAll t = encodeAll (c :: done).reverse ++ rest) :
      encodeAll t = encodeAll done.reverse ++ (own ++ rest) := by
    rw [ht, List.reverse_cons, encodeAll_append, List.append_assoc, ← hc]
    simp only [encodeAll, List.flatMap_cons, List.flatMap_nil, List.append_nil]
  have within {low high a : UInt8} (ha : (low ≤ a && a < high) = true) :
      low.toNat ≤ a.toNat ∧ a.toNat < high.toNat := by
    simpa [UInt8.le_iff_toNat_le, UInt8.lt_iff_toNat_lt] using ha
  fun_induction decodeOnto s done bs with
  | case1 done =>
    obtain rfl := Option.some.inj h
    rw [List.append_nil]
  | case2 done a rest ascii ih =>
    exact @push _ _ [a] _ (encodePoint_one (UInt8.lt_iff_toNat_lt.1 ascii)) (ih h)
  | case4 done a _ b rest range c found ih =>
    obtain ⟨y, hy, point⟩ := Option.bind_eq_some_iff.1 found
    obtain ⟨first, rfl⟩ := tail?_eq_some hy
    obtain ⟨val, least⟩ := point?_eq_some point
    obtain ⟨low, high⟩ := within range
    exact push (encodePoint_two low high first val (val ▸ least)) (ih h)
  | case7 done a _ b _ b' rest range c found ih =>
    obtain ⟨y, hy, found⟩ := Option.bind_eq_some_iff.1 found
    obtain ⟨z, hz, point⟩ := Option.bind_eq_some_iff.1 found
    obtain ⟨first, rfl⟩ := tail?_eq_some hy
    obtain ⟨second, rfl⟩ := tail?_eq_some hz
    obtain ⟨val, least⟩ := point?_eq_some point
    obtain ⟨low, high⟩ := within range
    exact push (encodePoint_three low high first second val (val ▸ least)) (ih h)
  | case10 done a _ b _ b' _ b'' rest range c found ih =>
    obtain ⟨y, hy, found⟩ := Option.bind_eq_some_iff.1 found
    obtain ⟨z, hz, found⟩ := Option.bind_eq_some_iff.1 found
    obtain ⟨w, hw, point⟩ := Option.bind_eq_some_iff.1 found
    obtain ⟨first, rfl⟩ := tail?_eq_some hy
    obtain ⟨second, rfl⟩ := tail?_eq_some hz
    obtain ⟨third, rfl⟩ := tail?_eq_some hw
    obtain ⟨val, least⟩ := point?_eq_some point
    have top := UInt8.le_iff_toNat_le.1 range
    exact push (encodePoint_four top first second third val (val ▸ least)) (ih h)
  | _ => cases h

theorem encodeAll_of_decode {t : Text} {bs : Bytes} (h : decode bs = some t) : encodeAll t = bs :=
  encodeAll_of_decodeOnto h

end ShardVault.Utf8

theorem ShardVault.Text.encode_eq_ok_iff {t : Text} {bs : Bytes} :
    t.encode = .ok bs ↔ t.isScalar = true ∧ Utf8.encodeAll t = bs := by
  simp only [encode, Utf8.encode]
  split <;> simp_all

namespace ShardVault.Encoding

theorem guess_of_ne_zero {a b : UInt8} (ha : a ≠ 0) (hb : b ≠ 0) (rest : Bytes) :
    guess (a :: b :: rest) = .units8 := by
  match rest with
  | [] => simp [guess, ha, hb]
  | [_] => rfl
  | _ :: _ :: _ => simp [guess, ha, hb]

theorem detect_of_ascii {a b : UInt8} (ha : a ≠ 0) (ha' : a < 0x80) (hb : b ≠ 0) (rest : Bytes) :
    detect (a :: b :: rest) = (.units8, a :: b :: rest) := by
  have other : ∀ {k : UInt8}, 0x80 ≤ k → k ≠ a := by
    intro k hk h
    subst h
    exact absurd (UInt8.lt_of_lt_of_le ha' hk) (UInt8.lt_irrefl _)
  have h : marks.find? (fun m ↦ m.1.isPrefixOf (a :: b :: rest)) = none := by
    simp only [marks, List.find?_eq_none, List.mem_cons, List.not_mem_nil, or_false,
      forall_eq_or_imp, forall_eq, List.isPrefixOf, Bool.and_eq_true, beq_iff_eq, not_and]
    exact ⟨fun h ↦ absurd h.symm ha, fun h ↦ absurd h (other (by decide)),
      fun h ↦ absurd h (other (by decide)), fun h ↦ absurd h (other (by decide)),
      fun h ↦ absurd h (other (by decide))⟩
  simp only [detect, h, guess_of_ne_zero ha hb]

theorem decode_encodeAll {a b : CodePoint} (ha : 0 < a.val) (ha' : a.val < 0x80) (hb : 0 < b.val)
    (hb' : b.val < 0x80) (t : Text) :
    decode (Utf8.encodeAll (a :: b :: t)) = some (a :: b :: t) := by
  have na := Utf8.toNat_byte (show a.val < 256 by omega)
  have nb := Utf8.toNat_byte (show b.val < 256 by omega)
  have split : Utf8.encodeAll (a :: b :: t) =
      UInt8.ofNat a.val :: UInt8.ofNat b.val :: Utf8.encodeAll t := by
    simp [Utf8.encodeAll, Utf8.encodePoint, ha', hb']
  have nonzero : ∀ {u : UInt8}, 0 < u.toNat → u ≠ 0 := by
    intro u hu h
    subst h
    exact absurd hu (by decide)
  have hd := detect_of_ascii (nonzero (na ▸ ha))
    (by rw [UInt8.lt_iff_toNat_lt, na]; exact ha') (nonzero (nb ▸ hb)) (Utf8.encodeAll t)
  rw [← split] at hd
  simp only [decode, hd, Form.decode]
  exact Utf8.decodeOnto_accepted_encodeAll _

end ShardVault.Encoding
