import ShardVault.Proofs.Catalogue.FileId
import ShardVault.Proofs.Json.Plain
import ShardVault.Shard.Basic

namespace ShardVault

namespace Text

theorem lowLine_notMem_ofInt (n : Int) : CodePoint.ofChar '_' ∉ ofInt n := by
  have digits : CodePoint.ofChar '_' ∉ ofNat n.natAbs := by
    intro h
    have := all_isAsciiDigit_ofNat n.natAbs _ h
    exact absurd this (by decide)
  unfold ofInt
  split
  · intro h
    rcases List.mem_append.1 h with h | h
    · exact absurd h (by decide)
    · exact digits h
  · exact digits

theorem ofInt_ne_of_neg {m n : Int} (hm : m < 0) (hn : 0 ≤ n) : ofInt m ≠ ofInt n := by
  intro h
  have minus : CodePoint.ofChar '-' ∈ ofInt n := by
    rw [← h, ofInt, if_pos hm]
    exact List.mem_cons_self
  rw [ofInt, if_neg (Int.not_lt.2 hn)] at minus
  exact absurd (all_isAsciiDigit_ofNat _ _ minus) (by decide)

theorem ofInt_injective {m n : Int} (h : ofInt m = ofInt n) : m = n := by
  by_cases hm : m < 0
  · by_cases hn : n < 0
    · rw [ofInt, ofInt, if_pos hm, if_pos hn] at h
      have := ofNat_injective (List.append_cancel_left h)
      omega
    · exact absurd h (ofInt_ne_of_neg hm (Int.not_lt.1 hn))
  · by_cases hn : n < 0
    · exact absurd h.symm (ofInt_ne_of_neg hn (Int.not_lt.1 hm))
    · rw [ofInt, ofInt, if_neg hm, if_neg hn] at h
      have := ofNat_injective h
      omega

end Text

/-- No two files and no two numbers make one id, whatever the ids of the files look like. -/
theorem shardId_inj {fileId other : Text} {i j : Int} :
    shardId fileId i = shardId other j ↔ fileId = other ∧ i = j := by
  refine ⟨fun h ↦ ?_, fun ⟨hid, hi⟩ ↦ hid ▸ hi ▸ rfl⟩
  have last (fileId : Text) (i : Int) : shardId fileId i =
      (fileId ++ Text.ofString "_shard") ++ CodePoint.ofChar '_' :: Text.ofInt i := by
    rw [shardId, List.append_assoc, List.append_assoc]
    rfl
  have numbers := h
  rw [last, last] at numbers
  have ends := congrArg (fun t ↦ t.reverse.takeWhile (· != CodePoint.ofChar '_')) numbers
  simp only [takeWhile_reverse_append (Text.lowLine_notMem_ofInt _)] at ends
  obtain rfl := Text.ofInt_injective (List.reverse_inj.1 ends)
  exact ⟨List.append_cancel_right (List.append_cancel_right h), rfl⟩

theorem nodup_shardIds (fileId : Text) (count : Nat) :
    ((List.range count).map fun i : Nat ↦ shardId fileId i).Nodup :=
  List.pairwise_map.2 (List.nodup_range.imp fun hne he ↦
    hne (Int.ofNat_inj.1 (shardId_inj.1 he).2))

theorem isScalar_shardId {fileId : Text} (h : fileId.isScalar = true) (index : Int) :
    (shardId fileId index).isScalar = true := by
  rw [shardId, Text.isScalar_append, Text.isScalar_append, h, Text.isScalar_ofInt]
  rfl

end ShardVault
