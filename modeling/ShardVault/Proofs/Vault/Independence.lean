import ShardVault.Proofs.Container.Workers
import ShardVault.Proofs.Store.Drop
import ShardVault.Proofs.Vault.Audit
import ShardVault.Proofs.Vault.Storing

namespace ShardVault

theorem mapM_eq_or_error {γ : Type} {α ε : Type} {f g : γ → Except ε α} {P : γ → Prop} {e : ε}
    {xs : List γ} (h : ∀ x ∈ xs, f x = g x ∨ P x ∧ (f x = .error e ∨ g x = .error e)) :
    xs.mapM f = xs.mapM g ∨ ∃ x ∈ xs, P x ∧ (xs.mapM f = .error e ∨ xs.mapM g = .error e) := by
  induction xs with
  | nil => exact .inl rfl
  | cons x xs ih =>
    rw [List.mapM_cons, List.mapM_cons]
    rcases h x (List.mem_cons_self ..) with same | ⟨hp, failed⟩
    · rw [same]
      cases g x with
      | error failure => exact .inl rfl
      | ok a =>
        rcases ih fun y hy ↦ h y (List.mem_cons_of_mem _ hy) with same | ⟨y, hy, hp, failed⟩
        · exact .inl (by rw [same])
        · refine .inr ⟨y, List.mem_cons_of_mem _ hy, hp, ?_⟩
          exact failed.imp (fun hf ↦ by rw [hf]; rfl) fun hg ↦ by rw [hg]; rfl
    · refine .inr ⟨x, List.mem_cons_self .., hp, ?_⟩
      exact failed.imp (fun hf ↦ by rw [hf]; rfl) fun hg ↦ by rw [hg]; rfl

namespace Vault

variable {v v' : Vault} {fileId key : Text} {m : Metadata}

theorem loadShard_eq_or_error (same : v'.shards.peek key = v.shards.peek key) :
    v'.loadShard key = v.loadShard key ∨ v'.shards.admits key ≠ v.shards.admits key ∧
      (v'.loadShard key = .error .unencodable ∨ v.loadShard key = .error .unencodable) := by
  rw [loadShard, loadShard, Store.get_eq, Store.get_eq, same]
  cases v'.shards.admits key <;> cases v.shards.admits key
  · exact .inl rfl
  · exact .inr ⟨Bool.false_ne_true, .inl rfl⟩
  · exact .inr ⟨Bool.false_ne_true.symm, .inr rfl⟩
  · exact .inl rfl

theorem metadataOf_eq_or_error (same : v'.metadata.peek fileId = v.metadata.peek fileId) :
    v'.metadataOf fileId = v.metadataOf fileId ∨
      v'.metadata.admits fileId ≠ v.metadata.admits fileId ∧
      (v'.metadataOf fileId = .error .unencodable ∨
        v.metadataOf fileId = .error .unencodable) := by
  rw [metadataOf, metadataOf, Store.get_eq, Store.get_eq, same]
  cases v'.metadata.admits fileId <;> cases v.metadata.admits fileId
  · exact .inl rfl
  · exact .inr ⟨Bool.false_ne_true, .inl rfl⟩
  · exact .inr ⟨Bool.false_ne_true.symm, .inr rfl⟩
  · exact .inl rfl

theorem peek_of_metadataOf (h : v.metadataOf fileId = .ok m) :
    ∃ bs, v.metadata.peek fileId = some bs ∧ Metadata.decode (.bytes bs) = .ok m := by
  obtain ⟨record, hget, hm⟩ := bind_eq_ok.1 h
  cases record with
  | none => cases hm
  | some bs => exact ⟨bs, Store.peek_of_get hget, hm⟩

/-- Two vaults hold the same under all keys that the download of a file looks up: the record of the
file, and its data shards as that record lists them. -/
structure Alike (v v' : Vault) (fileId : Text) : Prop where
  record : v'.metadata.peek fileId = v.metadata.peek fileId
  shards : ∀ (bs : Bytes) (m : Metadata), v.metadata.peek fileId = some bs →
    Metadata.decode (.bytes bs) = .ok m →
    ∀ id ∈ m.dataIds, v'.shards.peek id = v.shards.peek id

/-- A key that the download of a file looks up is admitted by the store of one vault only. -/
def Differ (v v' : Vault) (fileId : Text) : Prop :=
  v'.metadata.admits fileId ≠ v.metadata.admits fileId ∨
    ∃ m, v.metadataOf fileId = .ok m ∧
      ∃ id ∈ m.dataIds, v'.shards.admits id ≠ v.shards.admits id

end Vault

namespace Settings

variable {s s' : Settings} {v v' : Vault} {fileId : Text}

theorem downloadBy_eq (s : Settings) (w : Workers) (fileId : Text) :
    s.downloadBy w fileId = s.download fileId := by
  simp only [downloadBy, download, Container.decryptBy_eq]

theorem rebuild_congr (master : s'.encryptor.deriver.source.master = s.encryptor.deriver.source.master)
    (info : s'.encryptor.deriver.info = s.encryptor.deriver.info) (m : Metadata)
    (shards : List (Option Shard)) :
    s'.rebuild m fileId shards = s.rebuild m fileId shards := by
  have key := KeyDeriver.fileKey_congr master info
  have opens (c : Container) : c.decrypt s'.encryptor.deriver = c.decrypt s.encryptor.deriver := by
    simp only [Container.decrypt, key]
  simp only [rebuild, opens]

theorem retrieve_eq_or_error
    (master : s'.encryptor.deriver.source.master = s.encryptor.deriver.source.master)
    (info : s'.encryptor.deriver.info = s.encryptor.deriver.info) (alike : v.Alike v' fileId) :
    s'.retrieve fileId v' = s.retrieve fileId v ∨ v.Differ v' fileId ∧
      (s'.retrieve fileId v' = .error .unencodable ∨
        s.retrieve fileId v = .error .unencodable) := by
  simp only [retrieve]
  rcases Vault.metadataOf_eq_or_error alike.record with same | ⟨differ, failed⟩
  · rw [same]
    rcases found : v.metadataOf fileId with failure | m
    · exact .inl (by rw [error_bind, error_bind])
    simp only [ok_bind]
    split
    · exact .inl rfl
    obtain ⟨bs, hp, hd⟩ := Vault.peek_of_metadataOf found
    have each := mapM_eq_or_error fun id hid ↦
      Vault.loadShard_eq_or_error (alike.shards bs m hp hd id hid)
    rcases each with same | ⟨id, hid, differ, failed⟩
    · exact .inl (by simp only [Vault.dataShards, same, rebuild_congr master info])
    · refine .inr ⟨.inr ⟨m, found, id, hid, differ⟩, ?_⟩
      exact failed.imp (fun hf ↦ by rw [Vault.dataShards, hf, error_bind])
        fun hg ↦ by rw [Vault.dataShards, hg, error_bind]
  · refine .inr ⟨.inl differ, ?_⟩
    exact failed.imp (fun hf ↦ by rw [hf, error_bind]) fun hg ↦ by rw [hg, error_bind]

/-- A download depends on the record of the file, the records of its data shards and the key, and on
nothing else in the vault and the settings. It may differ only where a key that is looked up is one
that a single one of the vaults admits, and then fails in the other. -/
theorem downloadBy_alike (s s' : Settings) (w w' : Workers) (v v' : Vault) (fileId : Text)
    (master : s'.encryptor.deriver.source.master = s.encryptor.deriver.source.master)
    (info : s'.encryptor.deriver.info = s.encryptor.deriver.info) (alike : v.Alike v' fileId) :
    (s'.downloadBy w' fileId v').answer = (s.downloadBy w fileId v).answer ∨
      v.Differ v' fileId ∧
      ((s'.downloadBy w' fileId v').answer = .error .unencodable ∨
        (s.downloadBy w fileId v).answer = .error .unencodable) := by
  simp only [downloadBy_eq, answer_download]
  exact retrieve_eq_or_error master info alike

/-- Settings with the key of the least ones, and another size of chunks and layout. -/
def coarse : Settings where
  encryptor := { least.encryptor with chunkSize := 7, positive := by decide }
  layout := ⟨3, 2, by decide, Nat.two_pos⟩

theorem downloadBy_alike_least : ∃ (v : Vault) (id : Text),
    (least.downloadBy .backward id v).answer = .ok [7] ∧
      (coarse.downloadBy .backward id { v with
        shards := .table v.shards.entries, metadata := .table v.metadata.entries,
        index := some .empty }).answer = .ok [7] := by
  obtain ⟨id, hid⟩ := exists_fileId [7] (show Text.isScalar "a" = true by decide) .epoch
  have scalar := isScalar_of_fileId hid
  have accepts : least.Accepts [7] "a" none id .epoch :=
    accepts_of_least rfl (by decide) (by decide) (by decide) hid (by decide)
  obtain ⟨v, -, uploaded⟩ := accepts.run_upload (f := ⟨[7], "a", none, .epoch, .epoch⟩)
    (Vault.roomy_fresh .epoch) rfl (by decide) hid rfl rfl
  obtain ⟨form, holds⟩ := uploaded.held
  have found := metadataOf_of_record scalar DateTime.isWhole_epoch uploaded.peek_metadata
    uploaded.writable
  have downloaded : (least.downloadBy .backward id v).answer = .ok [7] := by
    rw [downloadBy_eq]
    exact congrArg Prod.fst (run_download scalar found holds)
  refine ⟨v, id, downloaded, ?_⟩
  rcases downloadBy_alike least coarse .backward .backward v
    { v with
      shards := .table v.shards.entries, metadata := .table v.metadata.entries,
      index := some .empty }
    id rfl rfl ⟨rfl, fun _ _ _ _ _ _ ↦ rfl⟩ with same | ⟨differ, -⟩
  · rw [same, downloaded]
  · -- All keys that are looked up can be encoded, and both kinds of stores admit them.
    rcases differ with differ | ⟨m, hm, key, hkey, differ⟩
    · rw [Store.admits_of_isScalar _ scalar, Store.admits_of_isScalar _ scalar] at differ
      exact absurd rfl differ
    · obtain rfl := Except.ok.inj (found.symm.trans hm)
      obtain ⟨i, -, rfl⟩ := List.mem_map.1 (List.mem_of_mem_take hkey)
      have scalar := isScalar_shardId scalar i
      rw [Store.admits_of_isScalar _ scalar, Store.admits_of_isScalar _ scalar] at differ
      exact absurd rfl differ

/-- A record that lists a lone surrogate as the id of a shard which neither store holds: the store in
memory does not find it, and the table fails. -/
theorem not_downloadBy_alike : ∃ v v' : Vault, v.Alike v' "f" ∧
    (least.downloadBy .backward "f" v).answer = .error (.notEnoughShards 0 1) ∧
    (least.downloadBy .backward "f" v').answer = .error .unencodable := by
  have layout : Metadata.strayed.HasLayout := ⟨rfl, by decide, by decide, rfl⟩
  have writable : Metadata.strayed.toJson.isWritable = true :=
    Metadata.isWritable_toJson (Json.isWritable_int (by decide)) (Json.isWritable_int (by decide))
      (Json.isWritable_int (by decide)) (Json.isWritable_int (by decide))
      (Json.isWritable_int (by decide))
  let v : Vault := { Vault.fresh .epoch with
    metadata := .memory [("f", Metadata.strayed.record)] none }
  have found : v.metadataOf "f" = .ok Metadata.strayed :=
    layout.metadataOf DateTime.isWhole_epoch writable (by decide)
      ((Entries.get?_cons _ _ _).trans (if_pos rfl))
  have empty : Layout.availableSlots [.passedOver] = [] := List.mergeSort_nil
  have gap : least.layout.payload [.passedOver] = .error (.notEnoughShards 0 1) := by
    rw [Layout.payload_of_lt, empty]
    · rfl
    · rw [empty]
      exact Nat.one_pos
  refine ⟨v, { v with shards := .table [] }, ⟨rfl, fun _ _ _ _ _ _ ↦ rfl⟩, ?_, ?_⟩
  · have missing : v.dataShards Metadata.strayed = .ok [none] := rfl
    have counts : Layout.of Metadata.strayed.dataShards Metadata.strayed.parityShards =
      .ok least.layout := rfl
    have judged : [none].map (least.layout.judge (some "f")) = [.passedOver] := rfl
    rw [downloadBy_eq, answer_download, retrieve, found, ok_bind, if_neg (by decide), missing,
      ok_bind, rebuild, counts, ok_bind, Layout.reconstruct, judged, gap]
    rfl
  · have failed : { v with shards := .table [] }.metadataOf "f" = .ok Metadata.strayed := found
    rw [downloadBy_eq, answer_download, retrieve, failed]
    rfl

end Settings

end ShardVault
