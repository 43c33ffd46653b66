import Mathlib.Data.List.Nodup
import Mathlib.Data.List.Perm.Subperm
import Mathlib.Data.Nat.Digits.Defs
import ShardVault.Proofs.Binary64
import ShardVault.Proofs.Bytes.Written
import ShardVault.Proofs.Result
import ShardVault.Proofs.Time.Order
import ShardVault.Vault.Listing

namespace ShardVault

theorem Totals.of_perm {files files' : List Metadata} (h : files.Perm files') :
    Totals.of files = Totals.of files' := by
  have sum (f : Metadata → Int) :
      files.foldr (fun m n ↦ f m + n) 0 = files'.foldr (fun m n ↦ f m + n) 0 :=
    h.foldr_eq' (fun _ _ _ _ _ ↦ by omega) 0
  simp only [Totals.of, h.length_eq, sum]

theorem log2_le {n bits : Nat} (h : n ≤ 2 ^ bits) : Nat.log2 n ≤ bits := by
  by_cases hn : n = 0
  · rw [hn]
    exact Nat.zero_le bits
  · exact Nat.le_of_lt_succ ((Nat.log2_lt hn).2 (h.trans_lt (Nat.pow_lt_pow_succ (by decide))))

/-- There is an overhead unless the containers are longer than the files beyond all measure. -/
theorem Totals.exists_overhead {t : Totals}
    (h : Nat.log2 (t.encryptedSize - t.plainSize).natAbs < 1000) : ∃ x, t.overhead = .ok x := by
  unfold overhead
  split
  · exact ⟨_, rfl⟩
  · obtain ⟨x, hx⟩ := Binary64.exists_ofRatio?
      (decide (t.encryptedSize - t.plainSize < 0)) h (show 0 < t.plainSize.natAbs by omega)
    exact ⟨x, by simp only [hx]⟩

/-- There is an overhead if there are no more files than digests and no container is over a terabyte. -/
theorem Totals.exists_overhead_of_le {t : Totals}
    (h : (t.encryptedSize - t.plainSize).natAbs ≤ (2 ^ 7) ^ 64 * 2 ^ 40) :
    ∃ x, t.overhead = .ok x := by
  have power : (2 ^ 7) ^ 64 * 2 ^ 40 = 2 ^ (7 * 64 + 40) := by
    rw [Nat.pow_add 2 (7 * 64) 40, Nat.pow_mul 2 7 64]
  exact exists_overhead (Nat.lt_of_le_of_lt (log2_le (h.trans_eq power)) (by decide))

theorem length_le_of_nodup_hex {ids : List Text} (hd : ids.Nodup)
    (hex : ∀ id ∈ ids, ∃ message, id = Sha256.hex message) : ids.length ≤ (2 ^ 7) ^ 64 := by
  let number (id : Text) : Nat := Nat.ofDigits (2 ^ 7) (id.map (·.val))
  have small : ∀ id ∈ ids, (id.map (·.val)).length = 64 ∧ ∀ d ∈ id.map (·.val), d < 2 ^ 7 := by
    intro id hid
    obtain ⟨message, rfl⟩ := hex id hid
    refine ⟨by rw [List.length_map, Sha256.length_hex], ?_⟩
    intro d hm
    obtain ⟨c, hc, rfl⟩ := List.mem_map.1 hm
    exact Sha256.isAscii_hex message c hc
  have distinct : (ids.map number).Nodup := by
    refine List.Nodup.map_on (?_) hd
    intro a ha b hb he
    have digits := Nat.ofDigits_inj_of_len_eq (by decide) ((small a ha).1.trans (small b hb).1.symm)
      (small a ha).2 (small b hb).2 he
    exact List.map_injective_iff.2 (fun c d ↦ Fin.ext) digits
  have range : ids.map number ⊆ List.range ((2 ^ 7) ^ 64) := by
    intro n hn
    obtain ⟨id, hid, rfl⟩ := List.mem_map.1 hn
    have bound := Nat.ofDigits_lt_base_pow_length (by decide) (small id hid).2
    rw [(small id hid).1] at bound
    exact List.mem_range.2 bound
  have length := (List.subperm_of_subset distinct range).length_le
  rwa [List.length_map, List.length_range] at length

section Records

variable {v : Vault} {record? : Text → Option Metadata}
  (hget : ∀ key ∈ v.metadata.keys, ∃ m, v.metadataOf key = .ok m ∧ record? key = some m)

include hget

theorem Vault.list_eq (folder : Option Text) : v.list folder =
    DateTime.newestFirst (·.createdAt) ((v.metadata.keys.filterMap record?).filter
      fun m ↦ folder.all fun f ↦ m.folderId == some f) := by
  rw [Vault.list, mapM_eq_ok_filterMap hget, ok_bind]

theorem Vault.totals_eq {files : List Metadata}
    (h : (v.metadata.keys.filterMap record?).Perm files) :
    v.totals = if DateTime.comparable (files.map (·.createdAt)) then
        (Totals.of files).overhead.map fun overhead ↦ (Totals.of files, overhead)
      else .error .unorderedTimes := by
  have times := DateTime.comparable_perm (h.map (·.createdAt))
  have list : v.list none =
      DateTime.newestFirst (·.createdAt) (v.metadata.keys.filterMap record?) :=
    (Vault.list_eq hget none).trans (congrArg _ (List.filter_eq_self.2 fun _ _ ↦ rfl))
  rw [Vault.totals, list]
  split
  · next hc =>
    obtain ⟨sorted, hs, perm⟩ := DateTime.newestFirst_of_comparable (times.trans hc)
    rw [hs, ok_bind, Totals.of_perm (perm.trans h)]
    simp only []
    cases (Totals.of files).overhead <;> rfl
  · next hc =>
    rw [DateTime.newestFirst_of_not_comparable (times.trans (Bool.eq_false_iff.2 hc))]
    rfl

end Records

end ShardVault
