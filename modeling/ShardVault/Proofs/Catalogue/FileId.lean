import ShardVault.Catalogue.FileId
import ShardVault.Catalogue.Name
import ShardVault.Proofs.Bytes.Written
import ShardVault.Proofs.Result
import ShardVault.Proofs.Time.RoundTrip

namespace ShardVault

def hashedBytes (data : Bytes) (name : Text) (time : DateTime) : Bytes :=
  data ++ Utf8.encodeAll name ++ Utf8.encodeAll time.shown

theorem fileId_eq_ok_iff {data : Bytes} {name id : Text} {time : DateTime} :
    fileId data name time = .ok id ↔
      name.isScalar = true ∧ Sha256.hex (hashedBytes data name time) = id := by
  constructor
  · intro h
    obtain ⟨nameBytes, hn, h⟩ := bind_eq_ok.1 h
    obtain ⟨timeBytes, ht, h⟩ := bind_eq_ok.1 h
    obtain ⟨hs, rfl⟩ := Text.encode_eq_ok_iff.1 hn
    obtain ⟨-, rfl⟩ := Text.encode_eq_ok_iff.1 ht
    exact ⟨hs, Except.ok.inj h⟩
  · rintro ⟨hs, rfl⟩
    exact bind_eq_ok.2 ⟨_, Text.encode_eq_ok_iff.2 ⟨hs, rfl⟩, bind_eq_ok.2 ⟨_,
      Text.encode_eq_ok_iff.2 ⟨time.isScalar_shown, rfl⟩, rfl⟩⟩

theorem exists_hex_of_fileId {data : Bytes} {name id : Text} {time : DateTime}
    (h : fileId data name time = .ok id) : ∃ message, id = Sha256.hex message :=
  ⟨_, (fileId_eq_ok_iff.1 h).2.symm⟩

theorem isScalar_of_fileId {data : Bytes} {name id : Text} {time : DateTime}
    (h : fileId data name time = .ok id) : id.isScalar = true := by
  obtain ⟨message, rfl⟩ := exists_hex_of_fileId h
  exact Sha256.isScalar_hex message

theorem length_of_fileId {data : Bytes} {name id : Text} {time : DateTime}
    (h : fileId data name time = .ok id) : id.length = 64 := by
  obtain ⟨message, rfl⟩ := exists_hex_of_fileId h
  exact Sha256.length_hex message

theorem exists_fileId (data : Bytes) {name : Text} (hname : name.isScalar = true)
    (time : DateTime) : ∃ id, fileId data name time = .ok id :=
  ⟨_, fileId_eq_ok_iff.2 ⟨hname, rfl⟩⟩

namespace DateTime

open Reader

/-- The bytes of a point in time are a date of fixed length and what follows the only `T`. -/
theorem encodeAll_shown_eq (t : DateTime) : ∃ date after, Utf8.encodeAll t.shown =
    date ++ 84 :: after ∧ date.length = 10 ∧ 84 ∉ after := by
  obtain ⟨hyear, hmonth, hday⟩ := parts_lt t.date
  refine ⟨Utf8.encodeAll t.date.shown, Utf8.encodeAll t.afterDate, ?_, ?_, ?_⟩
  · rw [shown_eq, Utf8.encodeAll_append, encodeAll_mark (by decide)]
    rfl
  · simp [encodeAll_date, length_spelled _ hyear, length_spelled _ hmonth, length_spelled _ hday]
  · intro h
    rw [Utf8.encodeAll_of_ascii fun c hc ↦
      Nat.lt_trans (val_lt_of_mem_afterDate t c hc) (by decide)] at h
    obtain ⟨c, hc, he⟩ := List.mem_map.1 h
    have hlt := val_lt_of_mem_afterDate t c hc
    have hval := congrArg UInt8.toNat he
    rw [Utf8.toNat_byte (by omega)] at hval
    exact absurd (hval ▸ hlt) (by decide)

end DateTime

theorem takeWhile_reverse_append {α : Type} [BEq α] [LawfulBEq α] {mark : α} {after : List α}
    (h : mark ∉ after) (before : List α) :
    (before ++ mark :: after).reverse.takeWhile (· != mark) = after.reverse := by
  rw [List.reverse_append, List.reverse_cons, List.append_assoc, List.takeWhile_append_of_pos]
  · simp
  · intro a ha
    simp only [bne_iff_ne, ne_eq]
    rintro rfl
    exact h (List.mem_reverse.1 ha)

variable {data₁ data₂ : Bytes} {name₁ name₂ : Text} {time₁ time₂ : DateTime}

/-- The same bytes are hashed just for the same times and the same bytes of content and name. -/
theorem hashedBytes_eq_iff : hashedBytes data₁ name₁ time₁ = hashedBytes data₂ name₂ time₂ ↔
    data₁ ++ Utf8.encodeAll name₁ = data₂ ++ Utf8.encodeAll name₂ ∧ time₁.shown = time₂.shown := by
  constructor
  · intro h
    obtain ⟨date₁, after₁, e₁, l₁, n₁⟩ := time₁.encodeAll_shown_eq
    obtain ⟨date₂, after₂, e₂, l₂, n₂⟩ := time₂.encodeAll_shown_eq
    have he := h
    simp only [hashedBytes, e₁, e₂] at he
    rw [← List.append_assoc, ← List.append_assoc] at he
    -- The only `T` of a time is the last one of all that is hashed.
    have ends := congrArg (fun bs ↦ bs.reverse.takeWhile (· != 84)) he
    simp only [takeWhile_reverse_append n₁, takeWhile_reverse_append n₂] at ends
    obtain rfl := List.reverse_inj.1 ends
    obtain ⟨front, rfl⟩ := List.append_inj' (List.append_cancel_right he) (l₁.trans l₂.symm)
    refine ⟨front, Utf8.encodeAll_injective time₁.isScalar_shown time₂.isScalar_shown ?_⟩
    rw [e₁, e₂]
  · rintro ⟨front, time⟩
    rw [hashedBytes, hashedBytes, front, time]

/-- Unless the hash function collides on them, two files share an id just if they have the same
time and the name of one begins with what the content of the other has more. -/
theorem fileId_eq_iff {id₁ id₂ : Text} (h₁ : fileId data₁ name₁ time₁ = .ok id₁)
    (h₂ : fileId data₂ name₂ time₂ = .ok id₂)
    (hc : ¬ Sha256.Collision (hashedBytes data₁ name₁ time₁) (hashedBytes data₂ name₂ time₂)) :
    id₁ = id₂ ↔ data₁ ++ Utf8.encodeAll name₁ = data₂ ++ Utf8.encodeAll name₂ ∧
      time₁.shown = time₂.shown := by
  obtain ⟨-, rfl⟩ := fileId_eq_ok_iff.1 h₁
  obtain ⟨-, rfl⟩ := fileId_eq_ok_iff.1 h₂
  rw [← hashedBytes_eq_iff]
  exact ⟨fun h ↦ (Sha256.eq_or_collision h).resolve_right hc, congrArg Sha256.hex⟩

theorem fileId_eq_iff_shared : ∃ id₁ id₂, fileId [0x61, 0x62] "c" .epoch = .ok id₁ ∧
    fileId [0x61] "bc" .epoch = .ok id₂ ∧
    (id₁ = id₂ ↔ [0x61, 0x62] ++ Utf8.encodeAll "c" = [0x61] ++ Utf8.encodeAll "bc" ∧
      DateTime.epoch.shown = DateTime.epoch.shown) := by
  obtain ⟨id₁, h₁⟩ := exists_fileId [0x61, 0x62] (show Text.isScalar "c" = true by decide) .epoch
  obtain ⟨id₂, h₂⟩ := exists_fileId [0x61] (show Text.isScalar "bc" = true by decide) .epoch
  have same : hashedBytes [0x61, 0x62] "c" .epoch = hashedBytes [0x61] "bc" .epoch :=
    hashedBytes_eq_iff.2 ⟨by decide, rfl⟩
  exact ⟨id₁, id₂, h₁, h₂, fileId_eq_iff h₁ h₂ fun hc ↦ hc.1 same⟩

/-- Contents `ab` and `a` under the names `c` and `bc` have one id at the same time. -/
theorem not_fileId_injective : ¬ ∀ (data₁ data₂ : Bytes) (name₁ name₂ : Text)
    (time₁ time₂ : DateTime) (id : Text), TextRule.fileName.checkText name₁ = .ok name₁ →
    TextRule.fileName.checkText name₂ = .ok name₂ → fileId data₁ name₁ time₁ = .ok id →
    fileId data₂ name₂ time₂ = .ok id →
    ¬ Sha256.Collision (hashedBytes data₁ name₁ time₁) (hashedBytes data₂ name₂ time₂) →
    data₁ = data₂ ∧ name₁ = name₂ ∧ time₁.shown = time₂.shown := by
  intro injective
  have same : hashedBytes [0x61, 0x62] "c" .epoch = hashedBytes [0x61] "bc" .epoch :=
    hashedBytes_eq_iff.2 ⟨by decide, rfl⟩
  have h := injective [0x61, 0x62] [0x61] "c" "bc" .epoch .epoch _ rfl rfl
    (fileId_eq_ok_iff.2 ⟨by decide, rfl⟩) (fileId_eq_ok_iff.2 ⟨by decide, congrArg _ same.symm⟩)
    fun hc ↦ hc.1 same
  exact absurd h.1 (by decide)

end ShardVault
