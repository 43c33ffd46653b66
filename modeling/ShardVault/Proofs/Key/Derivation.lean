import Mathlib.Data.List.Nodup
import ShardVault.Proofs.Container.Decryption
import ShardVault.Proofs.Text.Utf8

namespace ShardVault

theorem Bytes.map_xor_injective (k : UInt8) :
    Function.Injective (List.map fun b : UInt8 ↦ b ^^^ k) := by
  refine List.map_injective_iff.2 fun a b h ↦ ?_
  have undone := congrArg (· ^^^ k) h
  simpa [UInt8.xor_assoc] using undone

theorem Bytes.padTo_injective {size : Nat} {a b : Bytes} (hl : a.length = b.length)
    (h : a.padTo size = b.padTo size) : a = b :=
  (List.append_inj h hl).1

theorem Bytes.padTo_append_zeros {size n : Nat} {bs : Bytes} (h : (bs ++ zeros n).length ≤ size) :
    (bs ++ zeros n).padTo size = bs.padTo size := by
  simp only [zeros, List.length_append, List.length_replicate] at h
  simp only [padTo, zeros, List.append_assoc, List.replicate_append_replicate, List.length_append,
    List.length_replicate]
  congr 2
  omega

/-- Of two strings that fill up to the same, the longer one is the shorter one and zeros. -/
theorem Bytes.eq_append_zeros {size : Nat} {a b : Bytes} (h : a.padTo size = b.padTo size)
    (hl : b.length ≤ a.length) : ∃ n, a = b ++ zeros n := by
  have begins : b <+: a.padTo size := by
    rw [h]
    exact List.prefix_append b _
  obtain ⟨rest, rfl⟩ := List.prefix_of_prefix_length_le begins (List.prefix_append a _) hl
  unfold padTo at h
  rw [List.append_assoc] at h
  have tail := List.append_cancel_left h
  refine ⟨rest.length, congrArg (b ++ ·) (List.eq_replicate_iff.2 ⟨rfl, fun x hx ↦ ?_⟩)⟩
  have zero : x ∈ zeros (size - b.length) := tail ▸ List.mem_append_left _ hx
  exact List.eq_of_mem_replicate zero

namespace Hmac

@[simp] theorem length_block (key : Bytes) : (block key).length = 64 := by
  unfold block
  split
  · simp
  · next short => rw [Bytes.length_padTo, Nat.max_eq_right (Nat.not_lt.1 short)]

def inner (key message : Bytes) : Bytes :=
  (block key).map (· ^^^ 0x36) ++ message

/-- What is hashed last: the block of the key and the digest of the first. -/
def outer (key message : Bytes) : Bytes :=
  (block key).map (· ^^^ 0x5C) ++ Sha256.digest (inner key message)

def hashed (key message : Bytes) : List Bytes :=
  (if 64 < key.length then [key] else []) ++ [inner key message, outer key message]

theorem outer_mem_hashed (key message : Bytes) : outer key message ∈ hashed key message := by
  simp [hashed]

theorem block_eq_of_digest_eq {k₁ k₂ m₁ m₂ : Bytes}
    (distinct : ¬ Sha256.Collision (outer k₁ m₁) (outer k₂ m₂))
    (h : digest k₁ m₁ = digest k₂ m₂) : block k₁ = block k₂ := by
  have same : outer k₁ m₁ = outer k₂ m₂ := by
    by_contra differ
    exact distinct ⟨differ, h⟩
  exact Bytes.map_xor_injective 0x5C (List.append_inj same (by simp)).1

theorem digest_congr {k₁ k₂ : Bytes} (h : block k₁ = block k₂) (message : Bytes) :
    digest k₁ message = digest k₂ message := by
  simp only [digest, h]

theorem hashed_congr {k₁ k₂ : Bytes} (h₁ : k₁.length ≤ 64) (h₂ : k₂.length ≤ 64)
    (h : block k₁ = block k₂) (message : Bytes) : hashed k₁ message = hashed k₂ message := by
  simp only [hashed, inner, outer, if_neg (Nat.not_lt.2 h₁), if_neg (Nat.not_lt.2 h₂), h]

def Folds (long short : Bytes) : Prop :=
  64 < long.length ∧ short.length ≤ 64 ∧ short.padTo 64 = (Sha256.digest long).padTo 64

theorem block_of_long {key : Bytes} (h : 64 < key.length) :
    block key = (Sha256.digest key).padTo 64 := by
  rw [block, if_pos h]

theorem block_of_short {key : Bytes} (h : key.length ≤ 64) : block key = key.padTo 64 := by
  rw [block, if_neg (Nat.not_lt.2 h)]

theorem block_injective {k₁ k₂ : Bytes} (h₁ : k₁.length ≤ 64) (hl : k₁.length = k₂.length)
    (h : block k₁ = block k₂) : k₁ = k₂ := by
  rw [block_of_short h₁, block_of_short (hl ▸ h₁)] at h
  exact Bytes.padTo_injective hl h

theorem block_append_zeros {key : Bytes} {n : Nat} (h : (key ++ Bytes.zeros n).length ≤ 64) :
    block (key ++ Bytes.zeros n) = block key := by
  have short : key.length ≤ 64 := Nat.le_trans (List.prefix_append key _).length_le h
  rw [block_of_short h, block_of_short short, Bytes.padTo_append_zeros h]

/-- Keys have one block if one is the other and zeros, or if one is long and hashed to the other. -/
theorem block_eq_iff {k₁ k₂ : Bytes}
    (distinct : 64 < k₁.length → 64 < k₂.length → ¬ Sha256.Collision k₁ k₂) :
    block k₁ = block k₂ ↔ k₁ = k₂ ∨ (k₁.length ≤ 64 ∧ ∃ n, k₁ = k₂ ++ Bytes.zeros n) ∨
      (k₂.length ≤ 64 ∧ ∃ n, k₂ = k₁ ++ Bytes.zeros n) ∨ Folds k₁ k₂ ∨ Folds k₂ k₁ := by
  constructor
  · intro h
    rcases Nat.lt_or_ge 64 k₁.length with long₁ | short₁ <;>
      rcases Nat.lt_or_ge 64 k₂.length with long₂ | short₂
    · rw [block_of_long long₁, block_of_long long₂] at h
      refine .inl (by_contra fun differ ↦ distinct long₁ long₂ ⟨differ, ?_⟩)
      exact Bytes.padTo_injective (by simp) h
    · rw [block_of_long long₁, block_of_short short₂] at h
      exact .inr (.inr (.inr (.inl ⟨long₁, short₂, h.symm⟩)))
    · rw [block_of_short short₁, block_of_long long₂] at h
      exact .inr (.inr (.inr (.inr ⟨long₂, short₁, h⟩)))
    · rw [block_of_short short₁, block_of_short short₂] at h
      rcases Nat.le_total k₂.length k₁.length with shorter | shorter
      · exact .inr (.inl ⟨short₁, Bytes.eq_append_zeros h shorter⟩)
      · exact .inr (.inr (.inl ⟨short₂, Bytes.eq_append_zeros h.symm shorter⟩))
  · rintro (rfl | ⟨short, n, rfl⟩ | ⟨short, n, rfl⟩ | ⟨long, short, h⟩ | ⟨long, short, h⟩)
    · rfl
    · exact block_append_zeros short
    · exact (block_append_zeros short).symm
    · rw [block_of_long long, block_of_short short, h]
    · rw [block_of_long long, block_of_short short, h]

end Hmac

namespace Hkdf

def hashed (secret salt info : Bytes) : List Bytes :=
  Hmac.hashed salt secret ++ Hmac.hashed (Hmac.digest salt secret) (info ++ [1])

variable {secret s₁ s₂ info : Bytes}

theorem long_mem_hashed {salt : Bytes} (h : 64 < salt.length) :
    salt ∈ hashed secret salt info := by
  simp [hashed, Hmac.hashed, h]

theorem hashed_congr (h₁ : s₁.length ≤ 64) (h₂ : s₂.length ≤ 64)
    (h : Hmac.block s₁ = Hmac.block s₂) : hashed secret s₁ info = hashed secret s₂ info := by
  rw [hashed, hashed, Hmac.hashed_congr h₁ h₂ h, Hmac.digest_congr h]

/-- Two salts give one key just if they have one block, unless the hash function collides. -/
theorem derive_eq_iff (distinct : ∀ x ∈ hashed secret s₁ info, ∀ y ∈ hashed secret s₂ info,
    ¬ Sha256.Collision x y) :
    derive secret s₁ info = derive secret s₂ info ↔ Hmac.block s₁ = Hmac.block s₂ := by
  constructor
  · intro h
    -- First the expansion is undone, then the extraction.
    have extracted := Hmac.block_injective (by simp) (by simp) (Hmac.block_eq_of_digest_eq
      (distinct _ (List.mem_append_right _ (Hmac.outer_mem_hashed _ _))
        _ (List.mem_append_right _ (Hmac.outer_mem_hashed _ _))) h)
    exact Hmac.block_eq_of_digest_eq
      (distinct _ (List.mem_append_left _ (Hmac.outer_mem_hashed _ _))
        _ (List.mem_append_left _ (Hmac.outer_mem_hashed _ _))) extracted
  · intro h
    rw [derive, derive, Hmac.digest_congr h]

end Hkdf

theorem Utf8.encodeAll_nuls (n : Nat) :
    encodeAll (List.replicate n (CodePoint.ofNat 0)) = Bytes.zeros n := by
  rw [encodeAll_of_ascii fun c hc ↦ by rw [List.eq_of_mem_replicate hc]; decide,
    List.map_replicate]
  rfl

theorem Text.isScalar_append_nuls {t : Text} (h : t.isScalar = true) (n : Nat) :
    Text.isScalar (t ++ List.replicate n (CodePoint.ofNat 0)) = true := by
  have nuls : Text.isScalar (List.replicate n (CodePoint.ofNat 0)) = true :=
    Text.isScalar_of_ascii fun c hc ↦ by rw [List.eq_of_mem_replicate hc]; decide
  rw [Text.isScalar, List.all_append]
  exact Bool.and_eq_true_iff.2 ⟨h, nuls⟩

theorem Utf8.encodeAll_eq_append_zeros_iff {s t : Text} (hs : s.isScalar = true)
    (ht : t.isScalar = true) {n : Nat} : encodeAll s = encodeAll t ++ Bytes.zeros n ↔
      s = t ++ List.replicate n (CodePoint.ofNat 0) := by
  rw [← encodeAll_nuls, ← encodeAll_append]
  exact ⟨encodeAll_injective hs (Text.isScalar_append_nuls ht n), congrArg encodeAll⟩

def Text.Padded (longer shorter : Text) : Prop :=
  (Utf8.encodeAll longer).length ≤ 64 ∧ ∃ n, longer = shorter ++ List.replicate n (CodePoint.ofNat 0)

/-- Two ids share a key just if they are the same, if one of them has NULs after the other and fits a
block, or if one does not fit and its digest, with zeros, is the block of the other. Otherwise two of
the messages that are hashed for the two keys have one digest. -/
theorem deriveKey_eq_iff {master info : Bytes} {id₁ id₂ : Text} {key₁ key₂ : CipherKey}
    (h₁ : deriveKey master id₁ info = .ok key₁) (h₂ : deriveKey master id₂ info = .ok key₂)
    (distinct : ∀ x ∈ Hkdf.hashed master (Utf8.encodeAll id₁) info,
      ∀ y ∈ Hkdf.hashed master (Utf8.encodeAll id₂) info, ¬ Sha256.Collision x y) :
    key₁ = key₂ ↔ id₁ = id₂ ∨ id₁.Padded id₂ ∨ id₂.Padded id₁ ∨
      Hmac.Folds (Utf8.encodeAll id₁) (Utf8.encodeAll id₂) ∨
      Hmac.Folds (Utf8.encodeAll id₂) (Utf8.encodeAll id₁) := by
  obtain ⟨scalar₁, bytes₁⟩ := deriveKey_eq_ok_iff.1 h₁
  obtain ⟨scalar₂, bytes₂⟩ := deriveKey_eq_ok_iff.1 h₂
  have whole : Utf8.encodeAll id₁ = Utf8.encodeAll id₂ ↔ id₁ = id₂ :=
    ⟨Utf8.encodeAll_injective scalar₁ scalar₂, congrArg Utf8.encodeAll⟩
  have bytes : key₁ = key₂ ↔ key₁.bytes = key₂.bytes := by
    cases key₁
    cases key₂
    exact CipherKey.mk.injEq .. |>.to_iff
  rw [bytes, bytes₁, bytes₂, Hkdf.derive_eq_iff distinct, Hmac.block_eq_iff, whole]
  · simp only [Text.Padded, Utf8.encodeAll_eq_append_zeros_iff scalar₁ scalar₂,
      Utf8.encodeAll_eq_append_zeros_iff scalar₂ scalar₁]
  · exact fun long₁ long₂ ↦ distinct _ (Hkdf.long_mem_hashed long₁) _ (Hkdf.long_mem_hashed long₂)

theorem block_nul : Hmac.block (Utf8.encodeAll "a") =
    Hmac.block (Utf8.encodeAll ("a" ++ [CodePoint.ofNat 0])) := by
  decide

theorem hashed_nul : Hkdf.hashed (Bytes.zeros 32) (Utf8.encodeAll "a") defaultKeyInfo =
    Hkdf.hashed (Bytes.zeros 32) (Utf8.encodeAll ("a" ++ [CodePoint.ofNat 0])) defaultKeyInfo :=
  Hkdf.hashed_congr (by decide) (by decide) block_nul

theorem distinct_nul : ∀ x ∈ Hkdf.hashed (Bytes.zeros 32) (Utf8.encodeAll "a") defaultKeyInfo,
    ∀ y ∈ Hkdf.hashed (Bytes.zeros 32) (Utf8.encodeAll "a") defaultKeyInfo,
      ¬ Sha256.Collision x y := by
  have nodup : ((Hkdf.hashed (Bytes.zeros 32) (Utf8.encodeAll "a") defaultKeyInfo).map
      Sha256.digest).Nodup := by decide +kernel
  exact fun x hx y hy collision ↦
    collision.1 (List.inj_on_of_nodup_map nodup hx hy collision.2)

theorem deriveKey_eq_iff_nul : ∃ key₁ key₂,
    deriveKey (Bytes.zeros 32) "a" defaultKeyInfo = .ok key₁ ∧
    deriveKey (Bytes.zeros 32) ("a" ++ [CodePoint.ofNat 0]) defaultKeyInfo = .ok key₂ ∧
    key₁ = key₂ := by
  obtain ⟨key₁, h₁⟩ := exists_deriveKey (Bytes.zeros 32) defaultKeyInfo
    (show Text.isScalar "a" = true by decide)
  obtain ⟨key₂, h₂⟩ := exists_deriveKey (Bytes.zeros 32) defaultKeyInfo
    (show Text.isScalar ("a" ++ [CodePoint.ofNat 0]) = true by decide)
  refine ⟨key₁, key₂, h₁, h₂, (deriveKey_eq_iff h₁ h₂ ?_).2
    (.inr (.inr (.inl ⟨by decide, 1, rfl⟩)))⟩
  rw [← hashed_nul]
  exact distinct_nul

/-- The ids `a` and `a` with a NUL have one key, and nothing that is hashed for it collides. -/
theorem not_deriveKey_injective : ¬ ∀ (master info : Bytes) (id₁ id₂ : Text)
    (key₁ key₂ : CipherKey), master.length = 32 → deriveKey master id₁ info = .ok key₁ →
    deriveKey master id₂ info = .ok key₂ →
    (let messages := Hkdf.hashed master (Utf8.encodeAll id₁) info ++
        Hkdf.hashed master (Utf8.encodeAll id₂) info
      ∀ x ∈ messages, ∀ y ∈ messages, ¬ Sha256.Collision x y) →
    id₁ ≠ id₂ → key₁ ≠ key₂ := by
  intro injective
  obtain ⟨key, h₁⟩ := exists_deriveKey (Bytes.zeros 32) defaultKeyInfo
    (show Text.isScalar "a" = true by decide)
  have h₂ : deriveKey (Bytes.zeros 32) ("a" ++ [CodePoint.ofNat 0]) defaultKeyInfo = .ok key := by
    obtain ⟨-, bytes⟩ := deriveKey_eq_ok_iff.1 h₁
    refine deriveKey_eq_ok_iff.2 ⟨by decide, bytes.trans ?_⟩
    rw [Hkdf.derive, Hkdf.derive, Hmac.digest_congr block_nul]
  refine injective _ _ _ _ _ _ (by decide) h₁ h₂ ?_ (by decide) rfl
  rw [← hashed_nul]
  simp only [List.mem_append, or_self]
  exact distinct_nul

end ShardVault
