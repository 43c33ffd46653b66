import Mathlib.Algebra.Order.BigOperators.Group.List
import ShardVault.Proofs.Vault.Delete
import ShardVault.Proofs.Vault.Storing
import ShardVault.Proofs.Vault.Totals

namespace ShardVault

inductive Request
  | upload (data : Bytes) (name : Text) (folder : Option Text)
  | download (fileId : Text)
  | delete (fileId : Text)
  | metadata (fileId : Text)
  | totals

inductive Answer
  | metadata (m : Metadata)
  | data (bs : Bytes)
  | deleted (there : Bool)
  | totals (totals : Totals) (overhead : Binary64)

namespace Settings

def serve (s : Settings) : Request → Action Answer
  | .upload data name folder => return .metadata (← s.upload data name folder)
  | .download fileId => return .data (← s.download fileId)
  | .delete fileId => return .deleted (← deleteFile fileId)
  | .metadata fileId => return .metadata (← Action.ask (·.metadataOf fileId))
  | .totals => do
    let (totals, overhead) ← Action.ask (·.totals)
    return .totals totals overhead

/-- The answers to requests one after another, and the vault after them. -/
def serveAll (s : Settings) : List Request → Vault → List (Except Failure Answer) × Vault
  | [], v => ([], v)
  | request :: requests, v =>
    let (answer, v) := (s.serve request).run v
    let (answers, v) := s.serveAll requests v
    (answer :: answers, v)

end Settings

structure Ledger where
  files : Entries StoredFile
  reads : Nat

namespace Ledger

def totals (l : Ledger) (s : Settings) : Totals where
  files := l.files.length
  plainSize := ((l.files.map fun p ↦ p.2.data.length).sum : Nat)
  encryptedSize :=
    ((l.files.map fun p ↦ s.encryptor.containerSize p.2.data p.1 p.2.sealedAt).sum : Nat)
  shards := (l.files.length * s.layout.total : Nat)

/-- The answer to a request and the ledger after it, when the clock shows the times given. -/
def serve (l : Ledger) (s : Settings) (time : Nat → DateTime) :
    Request → Except Failure Answer × Ledger
  | .upload data name folder =>
    match fileId data name (time l.reads) with
    | .error failure => (.error failure, l)
    | .ok id =>
      let f : StoredFile := ⟨data, name, folder, time l.reads, time (l.reads + 1)⟩
      if s.layout.SliceFits (s.encryptor.containerSize data id f.sealedAt) then
        (.ok (.metadata (f.metadata s id)), ⟨l.files.put id f, l.reads + 2⟩)
      else (.error (.overflow .draw), { l with reads := l.reads + 2 })
  | .download fileId =>
    match l.files.get? fileId with
    | some f => (.ok (.data f.data), l)
    | none => (.error (.metadataNotFound fileId), l)
  | .delete fileId => (.ok (.deleted (l.files.has fileId)), { l with files := l.files.erase fileId })
  | .metadata fileId =>
    match l.files.get? fileId with
    | some f => (.ok (.metadata (f.metadata s fileId)), l)
    | none => (.error (.metadataNotFound fileId), l)
  | .totals =>
    if DateTime.comparable (l.files.map (·.2.createdAt)) then
      ((l.totals s).overhead.map (.totals (l.totals s)), l)
    else (.error .unorderedTimes, l)

/-- The answers to requests one after another, and the ledger after them. -/
def serveAll (l : Ledger) (s : Settings) (time : Nat → DateTime) :
    List Request → List (Except Failure Answer) × Ledger
  | [] => ([], l)
  | request :: requests =>
    let (answer, l) := l.serve s time request
    let (answers, l) := l.serveAll s time requests
    (answer :: answers, l)

/-- What may be asked for: files that are admitted, and ids without surrogates. -/
def Admits (l : Ledger) (s : Settings) (time : Nat → DateTime) : Request → Prop
  | .upload data name folder => ∃ id, fileId data name (time l.reads) = .ok id ∧
      s.Admits data name folder id (time (l.reads + 1))
  | .download fileId => fileId.isScalar = true
  | .delete fileId => fileId.isScalar = true
  | .metadata fileId => fileId.isScalar = true
  | .totals => True

theorem serve_upload {l : Ledger} {s : Settings} {time : Nat → DateTime} {data : Bytes}
    {name id : Text} (hid : fileId data name (time l.reads) = .ok id)
    (fits : s.layout.SliceFits (s.encryptor.containerSize data id (time (l.reads + 1))))
    (folder : Option Text) :
    l.serve s time (.upload data name folder) =
      (.ok (.metadata (StoredFile.metadata ⟨data, name, folder, time l.reads, time (l.reads + 1)⟩ s id)),
        ⟨l.files.put id ⟨data, name, folder, time l.reads, time (l.reads + 1)⟩, l.reads + 2⟩) := by
  simp only [serve, hid, if_pos fits]

def AdmitsAll (l : Ledger) (s : Settings) (time : Nat → DateTime) : List Request → Prop
  | [] => True
  | request :: requests =>
    l.Admits s time request ∧ (l.serve s time request).2.AdmitsAll s time requests

end Ledger

structure Vault.SameBut (v : Vault) (fileId : Text) (w : Vault) : Prop where
  metadata : ∀ key, key ≠ fileId → w.metadata.peek key = v.metadata.peek key
  shards : ∀ other, CodePoint.ofChar '_' ∉ other → other ≠ fileId → ∀ i : Nat,
    w.shards.peek (shardId other i) = v.shards.peek (shardId other i)

theorem Settings.Uploaded.sameBut {s : Settings} {v w : Vault} {f : StoredFile} {id : Text}
    (h : s.Uploaded v f id w) : v.SameBut id w where
  metadata := fun key hne ↦ (Store.peek_put h.metadata key).trans (if_neg hne)
  shards := by
    intro other _ hne i
    obtain ⟨payload, shards, cut, hwrite⟩ := h.shards
    have same := v.shards.peek_writeShards_other cut hne i
    rwa [hwrite] at same

theorem Vault.Deleted.sameBut {v w : Vault} {fileId : Text} {removed : List Text}
    (h : v.Deleted fileId removed w) : v.SameBut fileId w where
  metadata := fun key hne ↦ h.metadata.kept key fun hm ↦ hne (List.mem_singleton.1 hm)
  shards := fun _ ho hne i ↦ h.peek_other ho hne i

/-- A file of a ledger is in the vault, its record and its shards. -/
structure StoredFile.Kept (f : StoredFile) (s : Settings) (v : Vault) (fileId : Text) : Prop where
  hex : ∃ message, fileId = Sha256.hex message
  record : v.metadata.peek fileId = some (f.metadata s fileId).record
  writable : (f.metadata s fileId).toJson.isWritable = true
  whole : f.createdAt.IsWhole
  held : ∃ form, v.HoldsFile s fileId f.data form
  size : f.data.length ≤ Container.maxFileSize
  header : s.encryptor.HeaderFits f.data fileId f.sealedAt

/-- A vault and a ledger agree on the clock and on all files. -/
structure Vault.Agrees (v : Vault) (s : Settings) (time : Nat → DateTime) (l : Ledger) : Prop where
  reading : ∀ n, v.clock.reading n = .ok (time n)
  reads : v.clock.reads = l.reads
  roomy : v.Roomy
  shards : v.shards.Sound
  metadata : v.metadata.Sound
  distinct : l.files.keys.Nodup
  kept : ∀ fileId f, l.files.get? fileId = some f → f.Kept s v fileId
  absent : ∀ fileId, l.files.get? fileId = none → v.metadata.peek fileId = none

namespace StoredFile.Kept

variable {f : StoredFile} {s : Settings} {v w : Vault} {fileId : Text}

theorem isScalar (h : f.Kept s v fileId) : fileId.isScalar = true := by
  obtain ⟨message, rfl⟩ := h.hex
  exact Sha256.isScalar_hex message

theorem lowLine_notMem (h : f.Kept s v fileId) : CodePoint.ofChar '_' ∉ fileId := by
  obtain ⟨message, rfl⟩ := h.hex
  exact Sha256.lowLine_notMem_hex message

theorem of_sameBut {other : Text} (h : f.Kept s v fileId) (same : v.SameBut other w)
    (hne : fileId ≠ other) : f.Kept s w fileId where
  hex := h.hex
  record := (same.metadata fileId hne).trans h.record
  writable := h.writable
  whole := h.whole
  held := by
    obtain ⟨form, held⟩ := h.held
    refine ⟨form, held.hasKey, held.isSealed, held.decodes, held.isCut, ?_⟩
    intro shard hs
    obtain ⟨i, -, hid⟩ := held.isCut.exists_id hs
    rw [hid, same.shards fileId h.lowLine_notMem hne i, ← hid]
    exact held.stored shard hs
  size := h.size
  header := h.header

theorem of_sameStores (h : f.Kept s v fileId) (same : v.SameStores w) : f.Kept s w fileId where
  hex := h.hex
  record := same.2.1 ▸ h.record
  writable := h.writable
  whole := h.whole
  held := by
    obtain ⟨form, held⟩ := h.held
    exact ⟨form, held.hasKey, held.isSealed, held.decodes, held.isCut, same.1 ▸ held.stored⟩
  size := h.size
  header := h.header

theorem metadataOf (h : f.Kept s v fileId) : v.metadataOf fileId = .ok (f.metadata s fileId) :=
  Settings.metadataOf_of_record h.isScalar h.whole h.record h.writable

theorem run_download (h : f.Kept s v fileId) : (s.download fileId).run v = (.ok f.data, v) := by
  obtain ⟨form, held⟩ := h.held
  exact Settings.run_download h.isScalar h.metadataOf held

end StoredFile.Kept

namespace Vault.Agrees

variable {s : Settings} {v w : Vault} {time : Nat → DateTime} {l : Ledger} {fileId : Text}
  {master : CipherKey}

theorem metadataOf_of_absent (h : v.Agrees s time l) (hid : fileId.isScalar = true)
    (hl : l.files.get? fileId = none) : v.metadataOf fileId = .error (.metadataNotFound fileId) := by
  rw [Vault.metadataOf, Store.get_of_isScalar hid, h.absent fileId hl, ok_bind]

theorem isSome_peek (h : v.Agrees s time l) (fileId : Text) :
    (v.metadata.peek fileId).isSome = l.files.has fileId := by
  rw [← Entries.isSome_get?]
  cases hf : l.files.get? fileId with
  | none =>
    rw [h.absent fileId hf]
    rfl
  | some f =>
    rw [(h.kept fileId f hf).record]
    rfl

theorem put (h : v.Agrees s time l) {f : StoredFile} {reads : Nat} (same : v.SameBut fileId w)
    (kept : f.Kept s w fileId) (reading : w.clock.reading = v.clock.reading)
    (hreads : w.clock.reads = reads) (roomy : w.Roomy) (shards : w.shards.Sound)
    (metadata : w.metadata.Sound) : w.Agrees s time ⟨l.files.put fileId f, reads⟩ where
  reading := reading ▸ h.reading
  reads := hreads
  roomy := roomy
  shards := shards
  metadata := metadata
  distinct := Entries.nodup_keys_put h.distinct _ _
  kept := by
    intro k g hg
    rw [Entries.get?_put] at hg
    split at hg
    · next he =>
      subst he
      exact Option.some.inj hg ▸ kept
    · next hne => exact (h.kept k g hg).of_sameBut same hne
  absent := by
    intro k hk
    rw [Entries.get?_put] at hk
    split at hk
    · cases hk
    · next hne => rw [same.metadata k hne, h.absent k hk]

theorem erase (h : v.Agrees s time l) (same : v.SameBut fileId w)
    (gone : w.metadata.peek fileId = none) (clock : w.clock = v.clock) (roomy : w.Roomy)
    (shards : w.shards.Sound) (metadata : w.metadata.Sound) :
    w.Agrees s time { l with files := l.files.erase fileId } where
  reading := clock ▸ h.reading
  reads := clock ▸ h.reads
  roomy := roomy
  shards := shards
  metadata := metadata
  distinct := Entries.nodup_keys_erase h.distinct fileId
  kept := by
    intro k g hg
    rw [Entries.get?_erase] at hg
    split at hg
    · cases hg
    · next hne => exact (h.kept k g hg).of_sameBut same hne
  absent := by
    intro k hk
    rw [Entries.get?_erase] at hk
    split at hk
    · next he => exact he ▸ gone
    · next hne => rw [same.metadata k hne, h.absent k hk]

theorem of_sameStores (h : v.Agrees s time l) (same : v.SameStores w) {reads : Nat}
    (clock : w.clock = { v.clock with reads }) : w.Agrees s time { l with reads } where
  reading := clock ▸ h.reading
  reads := clock ▸ rfl
  roomy := by
    obtain ⟨shards, metadata, index⟩ := same
    exact ⟨shards ▸ h.roomy.shards, metadata ▸ h.roomy.metadata, index ▸ h.roomy.index⟩
  shards := same.1 ▸ h.shards
  metadata := same.2.1 ▸ h.metadata
  distinct := h.distinct
  kept := fun k g hg ↦ (h.kept k g hg).of_sameStores same
  absent := fun k hk ↦ same.2.1 ▸ h.absent k hk

theorem run_upload (h : v.Agrees s time l) (whole : ∀ n, (time n).IsWhole)
    (hkey : s.encryptor.deriver.source = .fixed master) (htotal : s.layout.total < 0x100000000)
    {f : StoredFile} (hf : f.createdAt = time l.reads ∧ f.sealedAt = time (l.reads + 1))
    (hid : ShardVault.fileId f.data f.name f.createdAt = .ok fileId)
    (accepts : s.Accepts f.data f.name f.folder fileId f.sealedAt) :
    ∃ w, (s.upload f.data f.name f.folder).run v = (.ok (f.metadata s fileId), w) ∧
      w.Agrees s time ⟨l.files.put fileId f, l.reads + 2⟩ := by
  have scalar := isScalar_of_fileId hid
  have createdAt : v.clock.reading v.clock.reads = .ok f.createdAt := by rw [h.reading, h.reads, hf.1]
  have sealedAt : v.clock.reading (v.clock.reads + 1) = .ok f.sealedAt := by
    rw [h.reading, h.reads, hf.2]
  obtain ⟨w, hrun, uploaded⟩ := accepts.run_upload h.roomy hkey htotal hid createdAt sealedAt
  have kept : f.Kept s w fileId := ⟨exists_hex_of_fileId hid, uploaded.peek_metadata,
    uploaded.writable, hf.1 ▸ whole _, uploaded.held, accepts.size, accepts.header⟩
  have shards : w.shards.Sound := by
    obtain ⟨payload, shards, cut, hwrite⟩ := uploaded.shards
    have written := h.shards.writeShards (cut.isScalar_id scalar)
    rwa [hwrite] at written
  exact ⟨w, hrun, h.put uploaded.sameBut kept (by rw [uploaded.clock])
    (by rw [uploaded.clock, h.reads]) uploaded.roomy shards
    (h.metadata.put scalar uploaded.metadata)⟩

theorem upload (h : v.Agrees s time l) (whole : ∀ n, (time n).IsWhole)
    (hkey : s.encryptor.deriver.source = .fixed master) (htotal : s.layout.total < 0x100000000)
    {data : Bytes} {name : Text} {folder : Option Text}
    (admitted : l.Admits s time (.upload data name folder)) :
    ((s.serve (.upload data name folder)).run v).1 =
        (l.serve s time (.upload data name folder)).1 ∧
      ((s.serve (.upload data name folder)).run v).2.Agrees s time
        (l.serve s time (.upload data name folder)).2 := by
  obtain ⟨id, hid, admits⟩ := admitted
  by_cases fits : s.layout.SliceFits (s.encryptor.containerSize data id (time (l.reads + 1)))
  · obtain ⟨w, hrun, agrees⟩ := h.run_upload whole hkey htotal
      (f := ⟨data, name, folder, time l.reads, time (l.reads + 1)⟩) ⟨rfl, rfl⟩ hid ⟨admits, fits⟩
    have serve : (s.serve (.upload data name folder)).run v = (.ok (.metadata _), w) :=
      (Action.run_bind_ok hrun _).trans (Action.run_pure _ w)
    rw [serve, Ledger.serve_upload hid fits folder]
    exact ⟨rfl, agrees⟩
  · have createdAt : v.clock.reading v.clock.reads = .ok (time l.reads) := by rw [h.reading, h.reads]
    have sealedAt : v.clock.reading (v.clock.reads + 1) = .ok (time (l.reads + 1)) := by
      rw [h.reading, h.reads]
    obtain ⟨w, hrun, same, clock⟩ :=
      admits.run_upload_of_large hkey hid createdAt sealedAt fits
    have serve : (s.serve (.upload data name folder)).run v = (.error (.overflow .draw), w) :=
      Action.run_bind_error hrun _
    rw [serve]
    simp only [Ledger.serve, hid, if_neg fits]
    exact ⟨trivial, h.of_sameStores same (h.reads ▸ clock)⟩

theorem download (h : v.Agrees s time l) (hid : fileId.isScalar = true) :
    (s.serve (.download fileId)).run v = ((l.serve s time (.download fileId)).1, v) ∧
      (l.serve s time (.download fileId)).2 = l := by
  simp only [Settings.serve, Ledger.serve]
  cases hf : l.files.get? fileId with
  | some f => exact ⟨(Action.run_bind_ok (h.kept fileId f hf).run_download _).trans rfl, rfl⟩
  | none =>
    refine ⟨Action.run_bind_error ?_ _, rfl⟩
    rw [Settings.download, downloadWith, Action.run_bind_error]
    rw [Action.run_ask, h.metadataOf_of_absent hid hf]

theorem metadataOf_eq (h : v.Agrees s time l) (hid : fileId.isScalar = true) :
    (s.serve (.metadata fileId)).run v = ((l.serve s time (.metadata fileId)).1, v) ∧
      (l.serve s time (.metadata fileId)).2 = l := by
  simp only [Settings.serve, Ledger.serve]
  cases hf : l.files.get? fileId with
  | some f =>
    refine ⟨?_, rfl⟩
    rw [Action.run_bind, Action.run_ask, (h.kept fileId f hf).metadataOf]
    rfl
  | none =>
    refine ⟨?_, rfl⟩
    rw [Action.run_bind, Action.run_ask, h.metadataOf_of_absent hid hf]

theorem delete (h : v.Agrees s time l) (hid : fileId.isScalar = true) :
    ((s.serve (.delete fileId)).run v).1 = (l.serve s time (.delete fileId)).1 ∧
      ((s.serve (.delete fileId)).run v).2.Agrees s time
        (l.serve s time (.delete fileId)).2 := by
  obtain ⟨removed, answer, w, hrun, deleted, hanswer, -⟩ := run_deleteFile
    (Store.get_of_isScalar hid) (fun key hk _ ↦ h.shards.scalar key hk) fun bs hbs ↦ by
      cases hf : l.files.get? fileId with
      | none =>
        rw [h.absent fileId hf] at hbs
        cases hbs
      | some f =>
        have kept := h.kept fileId f hf
        obtain rfl := Option.some.inj (kept.record.symm.trans hbs)
        refine ⟨hid, (f.metadata s fileId).readBack, s.layout.total, ?_, rfl⟩
        rw [Metadata.decode_record kept.writable]
        exact (s.hasLayout_metadataOf ..).checked_readBack
  obtain rfl := hanswer hid
  have serve : (s.serve (.delete fileId)).run v =
      (.ok (.deleted (v.metadata.peek fileId).isSome), w) :=
    (Action.run_bind_ok hrun _).trans (Action.run_pure _ w)
  have roomy : w.Roomy := by
    refine ⟨deleted.shards.room.trans h.roomy.shards, deleted.metadata.room.trans h.roomy.metadata,
      ?_⟩
    intro i hi
    obtain ⟨i', hi', he⟩ := deleted.index i hi
    exact he.trans (h.roomy.index i' hi')
  rw [serve, h.isSome_peek]
  simp only [Ledger.serve]
  exact ⟨trivial, h.erase deleted.sameBut (deleted.metadata.gone _ (List.mem_singleton_self _))
    deleted.clock roomy (deleted.shards.sound h.shards) (deleted.metadata.sound h.metadata)⟩

theorem totals_records (l : Ledger) (s : Settings) :
    Totals.of (l.files.map fun p ↦ p.2.metadata s p.1) = l.totals s := by
  have sum (f : Metadata → Int) (g : Text × StoredFile → Nat)
      (he : ∀ p : Text × StoredFile, f (p.2.metadata s p.1) = g p) :
      (l.files.map fun p ↦ p.2.metadata s p.1).foldr (fun m n ↦ f m + n) 0 =
        (l.files.map g).sum := by
    induction l.files with
    | nil => rfl
    | cons p files ih =>
      rw [List.map_cons, List.foldr_cons, ih, he, List.map_cons, List.sum_cons, Int.natCast_add]
  have shards : (l.files.map fun _ ↦ s.layout.total).sum = l.files.length * s.layout.total := by
    rw [List.map_const', List.sum_replicate_nat]
  rw [Totals.of, sum (·.plainSize) (fun p ↦ p.2.data.length) fun _ ↦ rfl,
    sum (·.encryptedSize) (fun p ↦ s.encryptor.containerSize p.2.data p.1 p.2.sealedAt) fun _ ↦ rfl,
    sum (·.totalShards) (fun _ ↦ s.layout.total) fun _ ↦ rfl, shards, List.length_map]
  rfl

theorem perm_records (h : v.Agrees s time l) :
    (v.metadata.keys.filterMap fun key ↦ (l.files.get? key).map (·.metadata s key)).Perm
      (l.files.map fun p ↦ p.2.metadata s p.1) := by
  have keys : v.metadata.keys.Perm l.files.keys := by
    apply (List.perm_ext_iff_of_nodup h.metadata.distinct h.distinct).2
    intro key
    rw [Store.mem_keys_iff, Entries.mem_keys_iff]
    cases hf : l.files.get? key with
    | none => simp [h.absent key hf]
    | some f => simp [(h.kept key f hf).record]
  exact Entries.perm_filterMap_get? keys h.distinct fun key f ↦ f.metadata s key

theorem totals_eq (h : v.Agrees s time l) :
    v.totals = if DateTime.comparable (l.files.map (·.2.createdAt)) then
      (l.totals s).overhead.map fun overhead ↦ (l.totals s, overhead)
      else .error .unorderedTimes := by
  have sums := Vault.totals_eq (fun key hk ↦ ?_) h.perm_records
  · rwa [totals_records, List.map_map] at sums
  · obtain ⟨bs, hk⟩ := Store.mem_keys_iff.1 hk
    cases hf : l.files.get? key with
    | none =>
      rw [h.absent key hf] at hk
      cases hk
    | some f => exact ⟨_, (h.kept key f hf).metadataOf, rfl⟩

theorem totals (h : v.Agrees s time l) :
    (s.serve .totals).run v = ((l.serve s time .totals).1, v) ∧
      (l.serve s time .totals).2 = l := by
  simp only [Settings.serve, Ledger.serve, Action.run_bind, Action.run_ask, h.totals_eq]
  cases DateTime.comparable (l.files.map (·.2.createdAt)) with
  | false => exact ⟨rfl, rfl⟩
  | true => cases (l.totals s).overhead <;> exact ⟨rfl, rfl⟩

theorem exists_overhead (h : v.Agrees s time l) : ∃ x, (l.totals s).overhead = .ok x := by
  have kept : ∀ p ∈ l.files, p.2.Kept s v p.1 := fun p hp ↦
    h.kept p.1 p.2 ((lookup_eq_some_iff h.distinct).2 hp)
  have count : l.files.length ≤ (2 ^ 7) ^ 64 := by
    have hex : ∀ id ∈ l.files.keys, ∃ message, id = Sha256.hex message := by
      intro id hid
      obtain ⟨p, hp, rfl⟩ := List.mem_map.1 hid
      exact (kept p hp).hex
    have length := length_le_of_nodup_hex h.distinct hex
    rwa [Entries.keys, List.length_map] at length
  have sum (g : Text × StoredFile → Nat) (hg : ∀ p ∈ l.files, g p ≤ 2 ^ 40) :
      (l.files.map g).sum ≤ (2 ^ 7) ^ 64 * 2 ^ 40 := by
    refine (List.sum_le_card_nsmul _ (2 ^ 40) ?_).trans ?_
    · intro n hn
      obtain ⟨p, hp, rfl⟩ := List.mem_map.1 hn
      exact hg p hp
    · rw [List.length_map]
      exact Nat.mul_le_mul_right _ count
  have small : Container.maxFileSize ≤ 2 ^ 34 := by decide
  have plain := sum (fun p ↦ p.2.data.length) fun p hp ↦ by
    have := (kept p hp).size
    omega
  have sealedSize := sum (fun p ↦ s.encryptor.containerSize p.2.data p.1 p.2.sealedAt)
    fun p hp ↦ by
      have := (kept p hp).size
      have := (kept p hp).header.length
      have := s.encryptor.containerSize_le p.2.data p.1 p.2.sealedAt
      omega
  apply Totals.exists_overhead_of_le
  simp only [Ledger.totals]
  generalize (2 ^ 7) ^ 64 * 2 ^ 40 = most at plain sealedSize ⊢
  omega

/-- A request that may come is answered like the ledger does, and leaves a vault that agrees with
the ledger after it. -/
theorem serve (h : v.Agrees s time l) (whole : ∀ n, (time n).IsWhole)
    (hkey : s.encryptor.deriver.source = .fixed master) (htotal : s.layout.total < 0x100000000)
    {request : Request} (admitted : l.Admits s time request) :
    ((s.serve request).run v).1 = (l.serve s time request).1 ∧
      ((s.serve request).run v).2.Agrees s time (l.serve s time request).2 := by
  have looked (hr : (s.serve request).run v =
      ((l.serve s time request).1, v) ∧ (l.serve s time request).2 = l) :
      ((s.serve request).run v).1 = (l.serve s time request).1 ∧
        ((s.serve request).run v).2.Agrees s time (l.serve s time request).2 := by
    rw [hr.1, hr.2]
    exact ⟨rfl, h⟩
  cases request with
  | upload data name folder => exact h.upload whole hkey htotal admitted
  | download fileId => exact looked (h.download admitted)
  | delete fileId => exact h.delete admitted
  | metadata fileId => exact looked (h.metadataOf_eq admitted)
  | totals => exact looked h.totals

theorem serveAll (h : v.Agrees s time l) (whole : ∀ n, (time n).IsWhole)
    (hkey : s.encryptor.deriver.source = .fixed master) (htotal : s.layout.total < 0x100000000)
    (requests : List Request) (admitted : l.AdmitsAll s time requests) :
    (s.serveAll requests v).1 = (l.serveAll s time requests).1 ∧
      (s.serveAll requests v).2.Agrees s time (l.serveAll s time requests).2 := by
  induction requests generalizing v l with
  | nil => exact ⟨rfl, h⟩
  | cons request requests ih =>
    obtain ⟨answer, next⟩ := h.serve whole hkey htotal admitted.1
    obtain ⟨answers, last⟩ := ih next admitted.2
    exact ⟨congrArg₂ List.cons answer answers, last⟩

end Vault.Agrees

theorem Vault.agrees_empty {v : Vault} {s : Settings} {time : Nat → DateTime}
    (reading : ∀ n, v.clock.reading n = .ok (time n)) (roomy : v.Roomy)
    (shards : v.shards.entries = []) (metadata : v.metadata.entries = []) :
    v.Agrees s time ⟨[], v.clock.reads⟩ where
  reading := reading
  reads := rfl
  roomy := roomy
  shards := .of_entries_eq_nil shards
  metadata := .of_entries_eq_nil metadata
  distinct := List.nodup_nil
  kept := nofun
  absent := by
    intro fileId _
    rw [Store.peek, metadata]
    rfl

/-- A vault that starts empty and is never full answers every run of requests like a ledger, and
the overhead over all its files is always a number. -/
theorem Settings.serveAll_eq_ledger {s : Settings} {v : Vault} {time : Nat → DateTime}
    {master : CipherKey} {requests : List Request}
    (hkey : s.encryptor.deriver.source = .fixed master) (htotal : s.layout.total < 0x100000000)
    (whole : ∀ n, (time n).IsWhole) (reading : ∀ n, v.clock.reading n = .ok (time n))
    (roomy : v.Roomy) (shards : v.shards.entries = []) (metadata : v.metadata.entries = [])
    (admitted : Ledger.AdmitsAll ⟨[], v.clock.reads⟩ s time requests) :
    (s.serveAll requests v).1 = (Ledger.serveAll ⟨[], v.clock.reads⟩ s time requests).1 ∧
      ∃ overhead, ((Ledger.serveAll ⟨[], v.clock.reads⟩ s time requests).2.totals s).overhead =
        .ok overhead := by
  obtain ⟨answers, agrees⟩ := (Vault.agrees_empty reading roomy shards metadata).serveAll whole
    hkey htotal requests admitted
  exact ⟨answers, agrees.exists_overhead⟩

namespace Settings

theorem serveAll_eq_ledger_least : ∃ id, fileId [7] "a" .epoch = .ok id ∧
    let requests := [.upload [7] "a" none, .download id, .upload [7] "a" (some "b"), .metadata id,
      .totals, .delete id, .download id, .delete id]
    (least.serveAll requests (.fresh .epoch)).1 =
        (Ledger.serveAll ⟨[], 0⟩ least (fun _ ↦ .epoch) requests).1 ∧
      ∃ overhead, ((Ledger.serveAll ⟨[], 0⟩ least (fun _ ↦ .epoch) requests).2.totals
        least).overhead = .ok overhead := by
  obtain ⟨id, hid⟩ := exists_fileId [7] (show Text.isScalar "a" = true by decide) .epoch
  have accepts (folder : Option Text) (hfolder : ∀ t, folder = some t → t.isScalar = true) :
      least.Accepts [7] "a" folder id .epoch :=
    accepts_of_length_le (by decide) (by decide) rfl (by decide) hfolder hid (by decide)
  have first := (accepts none nofun).toAdmits
  have again := (accepts (some "b") fun t ht ↦ Option.some.inj ht ▸ by decide).toAdmits
  have scalar := isScalar_of_fileId hid
  exact ⟨id, hid, serveAll_eq_ledger (v := .fresh .epoch) rfl (by decide)
    (fun _ ↦ DateTime.isWhole_epoch) (fun _ ↦ rfl) ⟨rfl, rfl, nofun⟩ rfl rfl
    ⟨⟨id, hid, first⟩, scalar, ⟨id, hid, again⟩, scalar, trivial, scalar, scalar, scalar, trivial⟩⟩

/-- The size of a chunk stands in the header of a container, and numbers are written up to a limit
of digits. -/
theorem upload_of_chunkSize {s : Settings}
    (h : Nat.pow 10 Numeral.digitLimit ≤ s.encryptor.chunkSize) (v : Vault) (data : Bytes)
    (name : Text) (folder : Option Text) :
    ∃ failure w, (s.upload data name folder).run v = (.error failure, w) := by
  rcases s.prepares_or_fails v data name folder with ⟨p, hp⟩ | ⟨failure, w, hw, -⟩
  · obtain ⟨header, hheader, -⟩ := bind_eq_ok.1 hp.payload
    have writable := (Json.encode_eq_ok_iff.1 hheader).1
    rw [Prepared.container, Container.header_assemble (s.encryptor.seal_sealed ..),
      Container.Encryptor.headerFor, Json.isWritable, Json.fieldsWritable_iff] at writable
    have chunkSize := writable ("chunkSize", .int s.encryptor.chunkSize) (by simp)
    rw [Json.isWritable, decide_eq_true_iff, Int.natAbs_natCast] at chunkSize
    exact absurd chunkSize (Nat.not_lt.2 h)
  · exact ⟨failure, w, hw⟩

theorem pow_ten_pos (k : Nat) : 0 < Nat.pow 10 k := Nat.pow_pos (by decide)

/-- The least settings but for chunks whose size has one digit too many to be written. -/
def coarsest : Settings :=
  { least with encryptor :=
    ⟨least.encryptor.deriver, Nat.pow 10 Numeral.digitLimit, pow_ten_pos _⟩ }

theorem chunkSize_coarsest :
    coarsest.encryptor.chunkSize = Nat.pow 10 Numeral.digitLimit := by
  rw [coarsest]

/-- Universal time when the clock is read for the first upload, and then times without a distance
from it. -/
def mixedTime (n : Nat) : DateTime :=
  if n < 2 then .epoch else { DateTime.epoch with offset := none }

theorem isWhole_mixedTime (n : Nat) : (mixedTime n).IsWhole := by
  unfold mixedTime
  split
  · exact DateTime.isWhole_epoch
  · exact nofun

def mixedVault : Vault :=
  { Vault.fresh .epoch with clock := ⟨fun n ↦ .ok (mixedTime n), 0⟩ }

theorem exists_uploads_mixed : ∃ (m₁ m₂ : Metadata) (v w : Vault),
    (least.upload [] "a" none).run mixedVault = (.ok m₁, v) ∧
      (least.upload [] "b" none).run v = (.ok m₂, w) ∧ w.totals = .error .unorderedTimes := by
  have hid₁ : fileId [] "a" (mixedTime 0) = .ok (Sha256.hex (hashedBytes [] "a" (mixedTime 0))) :=
    fileId_eq_ok_iff.2 ⟨by decide, rfl⟩
  have hid₂ : fileId [] "b" (mixedTime 2) = .ok (Sha256.hex (hashedBytes [] "b" (mixedTime 2))) :=
    fileId_eq_ok_iff.2 ⟨by decide, rfl⟩
  have ne : Sha256.hex (hashedBytes [] "b" (mixedTime 2)) ≠
      Sha256.hex (hashedBytes [] "a" (mixedTime 0)) := by decide +kernel
  generalize Sha256.hex (hashedBytes [] "a" (mixedTime 0)) = id₁ at hid₁ ne
  generalize Sha256.hex (hashedBytes [] "b" (mixedTime 2)) = id₂ at hid₂ ne
  have accepts₁ : least.Accepts [] "a" none id₁ (mixedTime 1) :=
    accepts_of_length_le (by decide) (by decide) rfl (by decide) nofun hid₁ (by decide)
  have accepts₂ : least.Accepts [] "b" none id₂ (mixedTime 3) :=
    accepts_of_length_le (by decide) (by decide) rfl (by decide) nofun hid₂ (by decide)
  have empty : mixedVault.Agrees least mixedTime ⟨[], 0⟩ :=
    Vault.agrees_empty (fun _ ↦ rfl) ⟨rfl, rfl, nofun⟩ rfl rfl
  obtain ⟨v, first, agrees⟩ := empty.run_upload isWhole_mixedTime rfl (by decide)
    (f := ⟨[], "a", none, mixedTime 0, mixedTime 1⟩) ⟨rfl, rfl⟩ hid₁ accepts₁
  obtain ⟨w, second, agrees⟩ := agrees.run_upload isWhole_mixedTime rfl (by decide)
    (f := ⟨[], "b", none, mixedTime 2, mixedTime 3⟩) ⟨rfl, rfl⟩ hid₂ accepts₂
  have files (f₁ f₂ : StoredFile) :
      Entries.put (Entries.put [] id₁ f₁) id₂ f₂ = [(id₁, f₁), (id₂, f₂)] :=
    Entries.put_of_not_mem (fun h ↦ ne (List.mem_singleton.1 h)) f₂
  rw [files] at agrees
  refine ⟨_, _, v, w, first, second, ?_⟩
  rw [agrees.totals_eq]
  rfl

/-- There are no sums over files whose times cannot be compared, and no uploads in chunks whose
size cannot be written. -/
theorem totals_of_mixed_times : (least.serveAll [.upload [] "a" none, .upload [] "b" none, .totals]
      { Vault.fresh .epoch with clock := ⟨fun n ↦ .ok (mixedTime n), 0⟩ }).1.getLast? =
        some (.error .unorderedTimes) ∧
    ∃ failure, (coarsest.serveAll [.upload [] "a" none] (.fresh .epoch)).1 = [.error failure] := by
  refine ⟨?_, ?_⟩
  · obtain ⟨m₁, m₂, v, w, first, second, totals⟩ := exists_uploads_mixed
    rw [mixedVault] at first
    simp only [serveAll, serve, Action.run_bind_ok first, Action.run_bind_ok second, Action.run_pure,
      Action.run_bind, Action.run_ask, totals, List.getLast?_cons_cons, List.getLast?_singleton]
  · obtain ⟨failure, w, hrun⟩ := upload_of_chunkSize (s := coarsest)
      (Nat.le_of_eq chunkSize_coarsest.symm) (.fresh .epoch) [] "a" none
    refine ⟨failure, ?_⟩
    simp only [serveAll, serve, Action.run_bind_error hrun]

end Settings

end ShardVault
