import ShardVault.Proofs.Bytes.Hex
import ShardVault.Proofs.Container.Failures

namespace ShardVault

open Container

variable {names : Environment} {name value : Text} {master info : Bytes} {fault : KeyFault}

namespace KeySource

/-- The variable holds 64 hexadecimal digits of either case, once the white space around its value is
dropped. -/
def Usable (names : Environment) (name : Text) : Prop :=
  ∃ value, names.get? name = some value ∧ value.trim.length = 64 ∧ ∀ c ∈ value.trim, c.IsHexDigit

inductive Unusable (names : Environment) (name : Text) : KeyFault → Prop
  | unset : names.get? name = none → Unusable names name .absent
  | notHex {value : Text} : names.get? name = some value →
      ¬ (value.trim.length % 2 = 0 ∧ ∀ c ∈ value.trim, c.IsHexDigit) →
      Unusable names name (.notHex name)
  | wrongSize {value : Text} : names.get? name = some value → value.trim.length % 2 = 0 →
      (∀ c ∈ value.trim, c.IsHexDigit) → value.trim.length ≠ 64 →
      Unusable names name .wrongSize

theorem not_usable_iff : ¬ Usable names name ↔ ∃ fault, Unusable names name fault := by
  constructor
  · intro h
    cases set : names.get? name with
    | none => exact ⟨.absent, .unset set⟩
    | some value =>
      by_cases spelt : value.trim.length % 2 = 0 ∧ ∀ c ∈ value.trim, c.IsHexDigit
      · refine ⟨.wrongSize, .wrongSize set spelt.1 spelt.2 fun size ↦ ?_⟩
        exact h ⟨value, set, size, spelt.2⟩
      · exact ⟨.notHex name, .notHex set spelt⟩
  · rintro ⟨fault, unusable⟩ ⟨value, set, size, digits⟩
    cases unusable with
    | unset unset => simp [set] at unset
    | notHex set' not =>
      obtain rfl := Option.some.inj (set.symm.trans set')
      exact not ⟨by rw [size], digits⟩
    | wrongSize set' even digits' other =>
      obtain rfl := Option.some.inj (set.symm.trans set')
      exact other size

theorem master_environment_eq_ok_iff : (environment names name).master = .ok (some master) ↔
    ∃ value, names.get? name = some value ∧ Hex.Spells value.trim master := by
  simp only [KeySource.master]
  cases names.get? name with
  | none => simp
  | some value =>
    simp only [Option.some.injEq, exists_eq_left', ← Hex.decode_eq_some_iff]
    cases Hex.decode value.trim with
    | none => simp
    | some found => simp

theorem usable_iff : Usable names name ↔
    ∃ master : Bytes, (environment names name).master = .ok (some master) ∧ master.length = 32 := by
  simp only [master_environment_eq_ok_iff]
  constructor
  · rintro ⟨value, set, size, digits⟩
    obtain ⟨master, spells⟩ := (Hex.exists_spells_iff _).2 ⟨by rw [size], digits⟩
    have := spells.length_eq
    exact ⟨master, ⟨value, set, spells⟩, by omega⟩
  · rintro ⟨master, ⟨value, set, spells⟩, size⟩
    have := spells.length_eq
    exact ⟨value, set, by omega, ((Hex.exists_spells_iff _).1 ⟨master, spells⟩).2⟩

end KeySource

open KeySource

/-- No file can be sealed or opened, for want of a master key. -/
structure KeyDeriver.Locked (deriver : KeyDeriver) (fault : KeyFault) : Prop where
  fileKey : ∀ fileId, deriver.fileKey fileId = .error (.keyUnavailable fault)
  encrypt : ∀ (w : Workers) (e : Encryptor) (data : Bytes) (fileId : Text) (nonces : NonceSupply)
    (createdAt : DateTime), e.deriver = deriver →
    e.encryptBy w data fileId nonces createdAt =
      .error (if maxFileSize < data.length then .invalid (.fileTooLarge maxFileSize)
        else .keyUnavailable fault)
  decrypt : ∀ (w : Workers) (c : Container) (data : Bytes), c.decryptBy w deriver ≠ .ok data
  decryptChunk : ∀ (c : Container) (place : Int) (piece : Bytes),
    c.decryptChunk deriver place ≠ .ok piece
  /-- Where nothing else is wrong before the key is asked for, its want is reported. -/
  reported : ∀ (w : Workers) (c : Container), firstMoved? 0 c.chunks = none →
    (∀ t ∈ c.merkleRoot :: c.chunkHashes, t.isScalar = true) →
    Merkle.root c.chunkHashes = c.merkleRoot →
    c.decryptBy w deriver = .error (.keyUnavailable fault)

theorem KeyDeriver.locked_of_fileKey {deriver : KeyDeriver}
    (h : ∀ fileId, deriver.fileKey fileId = .error (.keyUnavailable fault)) :
    deriver.Locked fault where
  fileKey := h
  encrypt w e data fileId nonces createdAt same := by
    subst same
    rw [Encryptor.encryptBy, Encryptor.keyFor]
    split
    · rfl
    · rw [h, error_bind]
  decrypt w c data := by
    rw [decryptBy_eq]
    intro opened
    obtain ⟨-, -, key, -, hkey, -⟩ := decrypt_eq_ok_iff.1 opened
    rw [h] at hkey
    cases hkey
  decryptChunk c place piece := by
    intro opened
    unfold Container.decryptChunk at opened
    split at opened
    · cases opened
    obtain ⟨path, -, opened⟩ := bind_eq_ok.1 opened
    obtain ⟨covered, -, opened⟩ := bind_eq_ok.1 opened
    cases covered with
    | false => cases opened
    | true =>
      obtain ⟨key, hkey, -⟩ := bind_eq_ok.1 opened
      rw [h] at hkey
      cases hkey
  reported w c placed scalars root := by
    have same := List.all_eq_true.2 scalars
    rw [decryptBy_eq, decrypt_eq_unlock _ placed, unlock, Text.guarded, if_pos same, root]
    simp [h]

theorem KeyDeriver.fileKey_of_unusable (h : Unusable names name fault) (info : Bytes)
    (fileId : Text) : KeyDeriver.fileKey ⟨.environment names name, info⟩ fileId =
      .error (.keyUnavailable fault) := by
  cases h with
  | unset unset => simp [fileKey, KeySource.master, unset]
  | @notHex value set not =>
    have none : Hex.decode value.trim = none := by
      apply Option.eq_none_iff_forall_ne_some.2
      intro master decodes
      exact not ((Hex.exists_spells_iff _).1 ⟨master, Hex.decode_eq_some_iff.1 decodes⟩)
    simp [fileKey, KeySource.master, set, none]
  | @wrongSize value set even digits other =>
    obtain ⟨master, spells⟩ := (Hex.exists_spells_iff _).2 ⟨even, digits⟩
    have given := master_environment_eq_ok_iff.2 ⟨value, set, spells⟩
    have size : master.length ≠ 32 := by
      have := spells.length_eq
      omega
    simp [fileKey, given, size]

/-- A variable of the environment gives the keys of files just if it is usable, and these are derived
from the bytes that its digits spell. Otherwise the fault is known and every file is locked. -/
theorem KeyDeriver.fileKey_environment (names : Environment) (name : Text) (info : Bytes)
    {fileId : Text} (scalar : fileId.isScalar = true) :
    let deriver : KeyDeriver := ⟨.environment names name, info⟩
    ((∃ key, deriver.fileKey fileId = .ok key) ↔ Usable names name) ∧
      (∀ key, deriver.fileKey fileId = .ok key ↔ ∃ value master, names.get? name = some value ∧
        value.trim.length = 64 ∧ Hex.Spells value.trim master ∧
        deriveKey master fileId info = .ok key) ∧
      (¬ Usable names name ↔ ∃ fault, Unusable names name fault) ∧
      ∀ fault, Unusable names name fault → deriver.Locked fault := by
  intro deriver
  refine ⟨?_, fun key ↦ ?_, not_usable_iff, fun fault h ↦ ?_⟩
  · rw [usable_iff]
    constructor
    · rintro ⟨key, hkey⟩
      obtain ⟨master, given, size, -⟩ := fileKey_eq_ok_iff.1 hkey
      exact ⟨master, given, size⟩
    · rintro ⟨master, given, size⟩
      have whole : deriver.source.master = .ok (some (CipherKey.mk master size).bytes) := given
      exact exists_fileKey whole scalar
  · rw [fileKey_eq_ok_iff]
    constructor
    · rintro ⟨master, given, size, hkey⟩
      obtain ⟨value, set, spells⟩ := master_environment_eq_ok_iff.1 given
      have := spells.length_eq
      exact ⟨value, master, set, by omega, spells, deriveKey_eq_ok_iff.2 hkey⟩
    · rintro ⟨value, master, set, size, spells, hkey⟩
      have := spells.length_eq
      exact ⟨master, master_environment_eq_ok_iff.2 ⟨value, set, spells⟩, by omega,
        deriveKey_eq_ok_iff.1 hkey⟩
  · exact locked_of_fileKey (fileKey_of_unusable h info)

def mixedDigits : Text :=
  CodePoint.ofNat 0x3000 :: (List.replicate 16 ("aFAf" : Text)).flatten ++ ("\t\n" : Text)

theorem fileKey_environment_mixed : ∃ key,
    KeyDeriver.fileKey ⟨.environment [("K", mixedDigits)] "K", defaultKeyInfo⟩ "f" = .ok key ∧
      deriveKey (List.replicate 32 0xAF) "f" defaultKeyInfo = .ok key := by
  have scalar : Text.isScalar "f" = true := by decide
  have set : Entries.get? [(("K" : Text), mixedDigits)] "K" = some mixedDigits := rfl
  have digits : mixedDigits.trim = (List.replicate 16 ("aFAf" : Text)).flatten := by decide +kernel
  obtain ⟨gives, derived, -⟩ :=
    KeyDeriver.fileKey_environment [("K", mixedDigits)] "K" defaultKeyInfo scalar
  have spells : Hex.Spells mixedDigits.trim (List.replicate 32 0xAF) := by
    rw [digits]
    unfold Hex.Spells
    decide
  obtain ⟨key, hkey⟩ := exists_deriveKey (List.replicate 32 0xAF) defaultKeyInfo scalar
  exact ⟨key, (derived key).2 ⟨_, _, set, by rw [digits]; rfl, spells, hkey⟩, hkey⟩

end ShardVault
