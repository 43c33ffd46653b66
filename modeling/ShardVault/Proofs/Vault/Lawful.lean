import ShardVault.Proofs.Vault.Upload

namespace ShardVault

structure Lawful {α : Type} (result : Except Failure α) : Prop where
  ne_illegalMove : ∀ source target, result ≠ .error (.illegalMove source target)

namespace Lawful

variable {α β : Type}

theorem ok (a : α) : Lawful (.ok a) := ⟨nofun⟩

theorem error {failure : Failure} (h : ∀ source target, failure ≠ .illegalMove source target) :
    Lawful (.error failure : Except Failure α) :=
  ⟨fun source target he ↦ h source target (Except.error.inj he)⟩

theorem ne {failure : Failure} (h : Lawful (.error failure : Except Failure α))
    (source target : FileStatus) : failure ≠ .illegalMove source target :=
  fun he ↦ h.ne_illegalMove source target (congrArg _ he)

theorem bind {x : Except Failure α} {f : α → Except Failure β} (h : Lawful x)
    (hf : ∀ a, Lawful (f a)) : Lawful (x >>= f) := by
  rcases x with failure | a
  · exact error h.ne
  · exact hf a

theorem map {x : Except Failure α} (h : Lawful x) (f : α → β) : Lawful (x.map f) := by
  rcases x with failure | a
  · exact error h.ne
  · exact ok _

theorem ite {c : Prop} [Decidable c] {x y : Except Failure α} (hx : Lawful x) (hy : Lawful y) :
    Lawful (if c then x else y) := by
  split
  · exact hx
  · exact hy

theorem encode (t : Text) : Lawful t.encode := by
  unfold Text.encode
  split
  · exact ok _
  · exact error nofun

theorem checkText (rule : TextRule) (t : Text) :
    Lawful ((rule.checkText t).mapError Failure.validation) := by
  rcases rule.checkText t with fault | t'
  · exact error nofun
  · exact ok _

theorem fileId (data : Bytes) (name : Text) (time : DateTime) :
    Lawful (ShardVault.fileId data name time) :=
  (encode name).bind fun _ ↦ (encode time.shown).bind fun _ ↦ ok _

theorem master (source : KeySource) : Lawful source.master := by
  cases source with
  | fixed key => exact ok _
  | given key => exact ok _
  | environment names name =>
    unfold KeySource.master
    simp only []
    split
    · exact ok _
    · split
      · exact ok _
      · refine error ?_
        intro source target h
        cases h

theorem deriveKey (master : Bytes) (id : Text) (info : Bytes) :
    Lawful (ShardVault.deriveKey master id info) := by
  have salt := encode id
  unfold ShardVault.deriveKey
  generalize id.encode = result at salt ⊢
  rcases result with failure | bs
  · exact error salt.ne
  · exact ok _

theorem keyFor (e : Container.Encryptor) (data : Bytes) (id : Text) : Lawful (e.keyFor data id) := by
  refine ite (error nofun) ((master _).bind ?_)
  intro found
  cases found with
  | none => exact error nofun
  | some key => exact ite (error nofun) (deriveKey ..)

theorem encodeJson (style : Json.Style) (document : Json) : Lawful (Json.encode style document) :=
  ite (ok _) (error nofun)

theorem encodeContainer (c : Container) : Lawful c.encode :=
  (encodeJson ..).bind fun written ↦ (encode written).bind fun _ ↦ ite (error nofun) (ok _)

theorem cut (l : Layout) (id : Text) (payload : Bytes) : Lawful (l.cut id payload) := by
  rw [Layout.cut_eq]
  exact ite (ok _) (error nofun)

theorem encodeShard (shard : Shard) : Lawful shard.encode := by
  refine (encode _).bind fun _ ↦ ite (error nofun) (bind ?_ fun _ ↦ ok _)
  exact ite (ok _) (error nofun)

theorem forKey (key : Text) (a : α) : Lawful (Table.forKey key a) :=
  ite (ok a) (error nofun)

theorem put (store : Store) (key : Text) (value : Bytes) : Lawful (store.put key value) := by
  refine ite (error nofun) (map ?_ _)
  cases store.shelf with
  | memory entries => exact ok _
  | table rows => exact (forKey key _).map _

theorem prepare {s : Settings} {v : Vault} (clock : ∀ n, Lawful (v.clock.reading n)) (data : Bytes)
    (name : Text) : Lawful (s.prepare v data name) :=
  (checkText ..).bind fun _ ↦ (clock _).bind fun _ ↦ (fileId ..).bind fun _ ↦
    (keyFor ..).bind fun _ ↦ (clock _).bind fun _ ↦ (encodeContainer _).bind fun _ ↦
      (cut ..).bind fun _ ↦ ok _

end Lawful

end ShardVault
