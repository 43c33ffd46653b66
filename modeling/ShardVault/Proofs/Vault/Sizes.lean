import ShardVault.Proofs.Container.Sizes
import ShardVault.Proofs.Vault.Intact
import ShardVault.Proofs.Vault.Ledger
import ShardVault.Proofs.Vault.Times
import ShardVault.Proofs.Vault.Totals

namespace ShardVault

namespace Metadata

/-- The sizes that a record tells are those of a file and of something larger, both under a
terabyte. -/
structure Weighs (m : Metadata) : Prop where
  nonneg : 0 ≤ m.plainSize
  larger : m.plainSize < m.encryptedSize
  small : m.encryptedSize ≤ (2 ^ 40 : Nat)

theorem excess_totals {files : List Metadata} (h : ∀ m ∈ files, m.Weighs) :
    (files.length : Int) ≤ (Totals.of files).encryptedSize - (Totals.of files).plainSize ∧
      (Totals.of files).encryptedSize - (Totals.of files).plainSize ≤
        (files.length * 2 ^ 40 : Nat) := by
  induction files with
  | nil => exact ⟨Int.le_refl 0, Int.le_refl 0⟩
  | cons m files ih =>
    obtain ⟨own, others⟩ := List.forall_mem_cons.1 h
    obtain ⟨low, high⟩ := ih others
    obtain ⟨nonneg, larger, small⟩ := own
    simp only [Totals.of, List.foldr_cons, List.length_cons] at low high ⊢
    omega

end Metadata

namespace Settings

variable {s : Settings} {v w : Vault} {data : Bytes} {name : Text} {folder : Option Text}
  {p : Prepared} {m : Metadata}

theorem Prepares.encrypts (h : s.Prepares v data name p) :
    s.encryptor.encrypt data p.id v.nonces p.sealedAt =
      .ok (p.container s data v.nonces, (s.encryptor.seal p.key data v.nonces).2) :=
  bind_eq_ok.2 ⟨p.key, h.key, rfl⟩

/-- The container of an upload has the shape that one worker gives it, and its payload is as long as
it is by its parts. -/
theorem Prepares.shapes (h : s.Prepares v data name p) :
    s.encryptor.Shapes data p.id (p.container s data v.nonces) ∧
      (p.container s data v.nonces).headerBytes.length < 0x100000000 ∧
      p.payload.length = 10 + (p.container s data v.nonces).headerBytes.length +
        36 * (p.container s data v.nonces).chunks.length + data.length := by
  have alone := Container.Encryptor.encryptBy_eq_encrypt (w := .alone) (Int.le_refl 1) s.encryptor
    data p.id v.nonces p.sealedAt
  obtain ⟨shapes, -, size⟩ := Container.Encryptor.shapes_of_encryptBy (alone.trans h.encrypts)
  exact ⟨shapes, (Container.length_of_encode h.payload).1, size p.payload h.payload⟩

theorem Prepares.weighs (h : s.Prepares v data name p) (folder : Option Text) :
    (p.metadata s data name folder).Weighs := by
  obtain ⟨-, header, size⟩ := h.shapes
  have sealed := s.encryptor.seal_sealed p.key data v.nonces
  have count : (p.container s data v.nonces).chunks.length ≤ data.length := by
    refine (sealed.length_eq.le).trans ?_
    exact Container.length_chunksFrom_le data.length data
  have fits := (Container.Encryptor.keyFor_eq_ok_iff.1 h.key).1
  have most : Container.maxFileSize = 10737418240 := rfl
  have plain : (p.metadata s data name folder).plainSize = (data.length : Int) := rfl
  have whole : (p.metadata s data name folder).encryptedSize = (p.payload.length : Int) := rfl
  refine ⟨by omega, by omega, ?_⟩
  rw [whole]
  omega

theorem container_of_upload (h : (s.upload data name folder).run v = (.ok m, w)) :
    ∃ c left createdAt payload,
      s.encryptor.encrypt data m.fileId v.nonces createdAt = .ok (c, left) ∧
        s.encryptor.Shapes data m.fileId c ∧ c.encode = .ok payload ∧
        m.encryptedSize = payload.length ∧ m.plainSize = data.length ∧
          payload.length = 10 + c.headerBytes.length + 36 * c.chunks.length + data.length := by
  have outcome := s.upload_outcome v data name folder
  rw [h] at outcome
  cases outcome with
  | @stored p bs answer w prepared shards record metadata answered =>
    obtain rfl := answered m rfl
    obtain ⟨shapes, -, size⟩ := prepared.shapes
    exact ⟨_, _, p.sealedAt, p.payload, prepared.encrypts, shapes, prepared.payload, rfl, rfl, size⟩

end Settings

/-- All times that the clock shows are of one kind, if a kind is given. -/
def Clock.Shows (c : Clock) (aware : Option Bool) : Prop :=
  ∀ kind ∈ aware, ∀ n time, c.reading n = .ok time → time.isAware = kind

/-- The vaults that come of empty ones by uploads, deletions and changes that touch no stored bytes.
The settings may be others at every step; the clock may show anything, or times of one kind. -/
inductive Vault.Arises (aware : Option Bool) : Vault → Prop
  | empty (v : Vault) (metadata : v.metadata.entries = []) (clock : v.clock.Shows aware) :
      Arises aware v
  | step {v w : Vault} {newIds : List Text} (s : Settings) (before : Arises aware v)
      (next : s.Step v newIds w) (clock : w.clock.Shows aware) : Arises aware w

/-- All records tell the sizes of a file and of something larger. -/
structure Vault.Weighed (v : Vault) (aware : Option Bool) : Prop where
  sound : v.metadata.Sound
  record : ∀ key bs, v.metadata.peek key = some bs → (∃ message, key = Sha256.hex message) ∧
    ∃ m, Metadata.decode (.bytes bs) = .ok m ∧ m.Weighs ∧ ∀ kind ∈ aware, m.createdAt.isAware = kind

/-- An operation keeps what holds of a vault, whether it answers or fails. -/
def Action.Keeps {α : Type} (P : Vault → Prop) (action : Action α) : Prop :=
  ∀ v, P v → P (action.run v).2

namespace Action.Keeps

variable {α β : Type} {P : Vault → Prop}

theorem bind {action : Action α} {next : α → Action β} (h : action.Keeps P)
    (hn : ∀ a, (next a).Keeps P) : (action >>= next).Keeps P := by
  intro v hv
  have first := h v hv
  rw [run_bind]
  rcases hr : action.run v with ⟨failure | a, w⟩
  · rwa [hr] at first
  · rw [hr] at first
    exact hn a w first

theorem change {step : Vault → Except Failure (α × Vault)}
    (h : ∀ v a w, step v = .ok (a, w) → P v → P w) : (Action.change step).Keeps P := by
  intro v hv
  rw [run_change]
  rcases hs : step v with failure | ⟨a, w⟩
  · exact hv
  · exact h v a w hs hv

end Action.Keeps

namespace Vault.Weighed

variable {v w : Vault} {aware : Option Bool}

theorem of_shelf (h : v.Weighed aware) (same : w.metadata.shelf = v.metadata.shelf) :
    w.Weighed aware := by
  have entries : w.metadata.entries = v.metadata.entries := congrArg Shelf.entries same
  refine ⟨⟨?_, same ▸ h.sound.ordered, ?_⟩, fun key bs hp ↦ h.record key bs ?_⟩
  · rw [Store.keys, entries]
    exact h.sound.distinct
  · rw [Store.keys, entries]
    exact h.sound.scalar
  · rwa [Store.peek, entries] at hp

theorem drop (h : v.Weighed aware) (gone : Text → Bool) :
    { v with metadata := v.metadata.drop gone }.Weighed aware where
  sound := h.sound.drop gone
  record := by
    intro key bs hp
    rw [Store.peek_drop] at hp
    split at hp
    · cases hp
    · exact h.record key bs hp

theorem keeps_removeShards (ids : List Text) : (removeShards ids).Keeps (·.Weighed aware) := by
  induction ids with
  | nil => exact fun _ h ↦ h
  | cons id ids ih =>
    refine .bind (.change fun v a w hs h ↦ ?_) fun there ↦ ih.bind fun count v h ↦ h
    obtain ⟨_, -, same⟩ := map_eq_ok.1 hs
    obtain ⟨-, rfl⟩ := Prod.mk.inj same
    exact h.of_shelf rfl

theorem keeps_namedShards (fileId : Text) (found : Option Bytes) :
    (namedShards fileId found).Keeps (·.Weighed aware) := by
  intro v h
  rw [namedShards.eq_def]
  split
  · exact h
  · split <;> exact h

theorem keeps_deleteFile (fileId : Text) : (deleteFile fileId).Keeps (·.Weighed aware) := by
  refine .bind (fun _ h ↦ h) fun found ↦ (keeps_namedShards fileId found).bind fun named ↦ ?_
  have chosen (rest : List Text → Action Bool) (hr : ∀ ids, (rest ids).Keeps (·.Weighed aware)) :
      Action.Keeps (·.Weighed aware) (if named.isEmpty then
        (Action.ask fun v ↦ .ok (v.shards.keys.filter (shardPrefix fileId).isPrefixOf)) >>= rest
        else pure named >>= rest) := by
    intro v h
    rw [run_chosen]
    exact hr _ v h
  refine chosen _ fun ids ↦ (keeps_removeShards ids).bind fun removed ↦ ?_
  refine .bind (.change fun v there w hs h ↦ ?_) fun there ↦
    .bind (.change fun v _ w hs h ↦ ?_) fun _ ↦ .bind (fun _ h ↦ h) fun _ _ h ↦ h
  · obtain ⟨⟨_, store⟩, hd, same⟩ := map_eq_ok.1 hs
    obtain ⟨-, rfl⟩ := Prod.mk.inj same
    have deleted := (v.metadata.delete_eq fileId).symm.trans hd
    split at deleted
    · obtain ⟨-, rfl⟩ := Prod.mk.inj (Except.ok.inj deleted)
      exact h.drop _
    · cases deleted
  · split at hs
    · obtain ⟨-, rfl⟩ := Prod.mk.inj (Except.ok.inj hs)
      exact h
    · obtain ⟨_, -, same⟩ := map_eq_ok.1 hs
      obtain ⟨-, rfl⟩ := Prod.mk.inj same
      exact h.of_shelf rfl

theorem upload (h : v.Weighed aware) (clock : v.clock.Shows aware) (s : Settings) (data : Bytes)
    (name : Text) (folder : Option Text) : (s.upload data name folder v).vault.Weighed aware := by
  have outcome := s.upload_outcome v data name folder
  change ((s.upload data name folder).run v).2.Weighed aware
  generalize (s.upload data name folder).run v = result at outcome ⊢
  cases outcome with
  | refused same =>
    obtain ⟨-, metadata, -⟩ := same
    exact h.of_shelf (congrArg Store.shelf metadata)
  | broken _ _ metadata => exact h.of_shelf (congrArg Store.shelf metadata)
  | @stored p bs answer w prepared _ record metadata _ =>
    obtain ⟨writable, -, rfl⟩ := Metadata.encode_eq_record.1 record
    refine ⟨h.sound.put prepared.isScalar_id metadata, fun key bs hp ↦ ?_⟩
    rw [Store.peek_put metadata] at hp
    split at hp
    · next own =>
      obtain rfl := Option.some.inj hp
      obtain ⟨nonneg, larger, small⟩ := prepared.weighs folder
      refine ⟨own ▸ exists_hex_of_fileId prepared.id, _, Settings.decode_record writable,
        ⟨nonneg, larger, small⟩, fun kind hk ↦ ?_⟩
      exact (Option.isSome_map ..).trans (clock kind hk _ _ prepared.createdAt)
    · exact h.record key bs hp

theorem step {s : Settings} {newIds : List Text} (h : v.Weighed aware)
    (clock : v.clock.Shows aware) (next : s.Step v newIds w) : w.Weighed aware := by
  cases next with
  | upload data name folder => exact h.upload clock s data name folder
  | delete fileId => exact keeps_deleteFile fileId v h
  | aside w _ metadata => exact h.of_shelf metadata

end Vault.Weighed

namespace Vault.Arises

variable {v : Vault} {aware : Option Bool}

theorem weighed (h : v.Arises aware) : v.Weighed aware ∧ v.clock.Shows aware := by
  induction h with
  | empty v metadata clock =>
    refine ⟨⟨.of_entries_eq_nil metadata, fun key bs hp ↦ ?_⟩, clock⟩
    rw [Store.peek, metadata] at hp
    cases hp
  | step s before next clock ih => exact ⟨ih.1.step ih.2 next, clock⟩

end Vault.Arises

namespace Vault.Weighed

variable {v : Vault} {aware : Option Bool}

theorem exists_metadataOf (h : v.Weighed aware) {key : Text} (hk : key ∈ v.metadata.keys) :
    ∃ m, v.metadataOf key = .ok m ∧ m.Weighs ∧ ∀ kind ∈ aware, m.createdAt.isAware = kind := by
  obtain ⟨bs, hp⟩ := Store.mem_keys_iff.1 hk
  obtain ⟨-, m, decodes, weighs, kind⟩ := h.record key bs hp
  refine ⟨m, ?_, weighs, kind⟩
  rw [metadataOf, Store.get_of_isScalar (h.sound.scalar key hk), hp, ok_bind]
  exact decodes

theorem exists_files (h : v.Weighed aware) : ∃ files : List Metadata,
    v.metadata.keys.mapM v.metadataOf = .ok files ∧ files.length = v.metadata.keys.length ∧
      (∀ m ∈ files, m.Weighs ∧ ∀ kind ∈ aware, m.createdAt.isAware = kind) ∧
        v.totals = if DateTime.comparable (files.map (·.createdAt)) then
          (Totals.of files).overhead.map fun overhead ↦ (Totals.of files, overhead)
          else .error .unorderedTimes := by
  have found : ∀ key ∈ v.metadata.keys,
      ∃ m, v.metadataOf key = .ok m ∧ (v.metadataOf key).toOption = some m := by
    intro key hk
    obtain ⟨m, hm, -⟩ := h.exists_metadataOf hk
    exact ⟨m, hm, by rw [hm]; rfl⟩
  have all := mapM_eq_ok_filterMap found
  refine ⟨_, all, (mapM_eq_ok_iff.1 all).length_eq.symm, fun m hm ↦ ?_,
    Vault.totals_eq found (List.Perm.refl _)⟩
  obtain ⟨key, hk, hm⟩ := List.mem_filterMap.1 hm
  obtain ⟨own, read, weighs, kind⟩ := h.exists_metadataOf hk
  rw [read] at hm
  obtain rfl := Option.some.inj hm
  exact ⟨weighs, kind⟩

theorem exists_overhead (h : v.Weighed aware) {files : List Metadata}
    (count : files.length = v.metadata.keys.length) (weighs : ∀ m ∈ files, m.Weighs) :
    ∃ x, (Totals.of files).overhead = .ok x := by
  have hex : ∀ key ∈ v.metadata.keys, ∃ message, key = Sha256.hex message := by
    intro key hk
    obtain ⟨bs, hp⟩ := Store.mem_keys_iff.1 hk
    exact (h.record key bs hp).1
  have most : files.length * 2 ^ 40 ≤ (2 ^ 7) ^ 64 * 2 ^ 40 :=
    Nat.mul_le_mul_right _ (count ▸ length_le_of_nodup_hex h.sound.distinct hex)
  obtain ⟨low, high⟩ := Metadata.excess_totals weighs
  refine Totals.exists_overhead_of_le (Nat.le_trans ?_ most)
  omega

end Vault.Weighed

/-- The sums over a vault that holds a file: all records can be read, the containers are larger than
the files, and the sums are given out unless the times cannot be ordered. -/
theorem Vault.Arises.totals {v : Vault} {aware : Option Bool} (h : v.Arises aware)
    (stored : v.metadata.keys ≠ []) :
    ∃ (files : List Metadata) (overhead : Binary64),
      v.metadata.keys.mapM v.metadataOf = .ok files ∧
        (Totals.of files).plainSize < (Totals.of files).encryptedSize ∧
        v.totals = (if DateTime.comparable (files.map (·.createdAt)) then
          .ok (Totals.of files, overhead) else .error .unorderedTimes) ∧
        (aware.isSome = true → DateTime.comparable (files.map (·.createdAt)) = true) := by
  obtain ⟨weighed, -⟩ := h.weighed
  obtain ⟨files, all, count, each, totals⟩ := weighed.exists_files
  have weighs : ∀ m ∈ files, m.Weighs := fun m hm ↦ (each m hm).1
  obtain ⟨overhead, known⟩ := weighed.exists_overhead count weighs
  refine ⟨files, overhead, all, ?_, ?_, fun given ↦ ?_⟩
  · have some_file := List.length_pos_of_ne_nil stored
    obtain ⟨low, -⟩ := Metadata.excess_totals weighs
    omega
  · rw [totals, known, map_ok]
  · obtain ⟨kind, rfl⟩ := Option.isSome_iff_exists.1 given
    apply DateTime.comparable_of_isAware
    exact List.forall_mem_map.2 fun m hm ↦ (each m hm).2 kind rfl

/-- A container has the shape and the size that the file and the size of a chunk make; an upload
records that size; and in every vault that holds a file the containers are larger than the files. -/
theorem sizes_of_containers (e : Container.Encryptor) (s : Settings) (v : Vault) (data : Bytes) :
    (∀ (workers : Workers) (fileId : Text) (nonces : NonceSupply) (createdAt : DateTime),
      ((∃ answer, e.encryptBy workers data fileId nonces createdAt = .ok answer) ↔
        data.length ≤ Container.maxFileSize ∧ ∃ key, e.deriver.fileKey fileId = .ok key) ∧
      ∀ c left, e.encryptBy workers data fileId nonces createdAt = .ok (c, left) →
        e.Shapes data fileId c ∧
        ((∃ bs, c.encode = .ok bs) ↔
          c.header.isWritable = true ∧ c.headerBytes.length < 0x100000000) ∧
        ∀ bs, c.encode = .ok bs →
          bs.length = 10 + c.headerBytes.length + 36 * c.chunks.length + data.length) ∧
    (∀ (name : Text) (folder : Option Text) (m : Metadata) (w : Vault),
      (s.upload data name folder).run v = (.ok m, w) → ∃ c left createdAt payload,
        s.encryptor.encrypt data m.fileId v.nonces createdAt = .ok (c, left) ∧
        s.encryptor.Shapes data m.fileId c ∧ c.encode = .ok payload ∧
        m.encryptedSize = payload.length ∧ m.plainSize = data.length ∧
        payload.length = 10 + c.headerBytes.length + 36 * c.chunks.length + data.length ∧
        m.plainSize < m.encryptedSize) ∧
    ∀ aware : Option Bool, v.Arises aware → v.metadata.keys ≠ [] →
      ∃ (files : List Metadata) (overhead : Binary64),
        v.metadata.keys.mapM v.metadataOf = .ok files ∧
        (Totals.of files).plainSize < (Totals.of files).encryptedSize ∧
        v.totals = (if DateTime.comparable (files.map (·.createdAt)) then
          .ok (Totals.of files, overhead) else .error .unorderedTimes) ∧
        (aware.isSome = true → DateTime.comparable (files.map (·.createdAt)) = true) := by
  refine ⟨fun workers fileId nonces createdAt ↦ ?_, ?_, ?_⟩
  · exact ⟨Container.Encryptor.exists_encryptBy_iff workers nonces createdAt,
      fun c left h ↦ Container.Encryptor.shapes_of_encryptBy h⟩
  · intro name folder m w h
    obtain ⟨c, left, createdAt, payload, encrypts, shapes, encodes, size, plain, parts⟩ :=
      Settings.container_of_upload h
    exact ⟨c, left, createdAt, payload, encrypts, shapes, encodes, size, plain, parts, by omega⟩
  · exact fun aware h stored ↦ h.totals stored

theorem sizes_of_containers_least : ∃ (m : Metadata) (w : Vault) (files : List Metadata)
    (overhead : Binary64), (Settings.least.upload [7] "a" none).run (.fresh .epoch) = (.ok m, w) ∧
      m.plainSize < m.encryptedSize ∧ w.Arises (some true) ∧
      w.totals = .ok (Totals.of files, overhead) ∧
      (Totals.of files).plainSize < (Totals.of files).encryptedSize := by
  obtain ⟨m, w, hup, -⟩ := Settings.download_run_upload_least [7] (by decide)
  obtain ⟨bs, hp, -⟩ := Settings.record_of_upload hup
  obtain ⟨-, upload, -⟩ :=
    sizes_of_containers Settings.least.encryptor Settings.least (.fresh .epoch) [7]
  obtain ⟨-, -, -, -, -, -, -, -, -, -, larger⟩ := upload _ _ _ _ hup
  obtain ⟨-, -, totals⟩ := sizes_of_containers Settings.least.encryptor Settings.least w [7]
  have clock : (Vault.fresh .epoch).clock.Shows (some true) := by
    intro kind hk n time shown
    obtain rfl := Option.some.inj hk
    exact Except.ok.inj shown ▸ rfl
  have arises : w.Arises (some true) := by
    have readings := Action.KeepsTimes.upload Settings.least [7] "a" none (.fresh .epoch)
    rw [hup] at readings
    obtain ⟨-, rfl⟩ := Prod.mk.inj hup
    refine .step Settings.least (.empty _ rfl clock) (.upload [7] "a" none) ?_
    rwa [Clock.Shows, readings]
  obtain ⟨files, overhead, -, more, sums, one_kind⟩ := totals (some true) arises
    (List.ne_nil_of_mem (Store.mem_keys_iff.2 ⟨bs, hp⟩))
  rw [if_pos (one_kind rfl)] at sums
  exact ⟨m, w, files, overhead, hup, larger, arises, sums, more⟩

/-- There are no sums over a vault that holds files of times that cannot be compared. -/
theorem not_exists_totals : ¬ ∀ v : Vault, v.Arises none → v.metadata.keys ≠ [] →
    ∃ (totals : Totals) (overhead : Binary64), v.totals = .ok (totals, overhead) ∧
      totals.plainSize < totals.encryptedSize := by
  intro sums
  obtain ⟨m₁, m₂, v, w, first, second, unordered⟩ := Settings.exists_uploads_mixed
  obtain ⟨bs, stored, -⟩ := Settings.record_of_upload second
  have arises : w.Arises none := by
    obtain ⟨-, rfl⟩ := Prod.mk.inj first
    obtain ⟨-, rfl⟩ := Prod.mk.inj second
    exact .step _ (.step _ (.empty Settings.mixedVault rfl nofun) (.upload [] "a" none) nofun)
      (.upload [] "b" none) nofun
  obtain ⟨totals, overhead, given, -⟩ :=
    sums w arises (List.ne_nil_of_mem (Store.mem_keys_iff.2 ⟨bs, stored⟩))
  rw [unordered] at given
  cases given

end ShardVault
