import ShardVault.Proofs.Shard.Slots
import ShardVault.Proofs.Store.Drop
import ShardVault.Proofs.Vault.Tampering
import ShardVault.Vault.Audit

namespace ShardVault

namespace Metadata

variable {m : Metadata} {fileId : Text} {f : Text → Finding}

theorem errors_audit (m : Metadata) (fileId : Text) (f : Text → Finding) :
    (m.audit fileId (m.shardIds.map f)).errors =
      m.shardIds.filterMap fun id ↦ (f id).complaint? id := by
  rw [audit, List.zipWith_map_right, List.zipWith_self, List.filterMap_map]
  rfl

theorem isValid_audit_iff (h : m.HasLayout) :
    (m.audit fileId (m.shardIds.map f)).isValid = true ↔ ∀ id ∈ m.dataIds, f id = .intact := by
  have length := h.length_dataIds
  rw [audit, decide_eq_true_iff, ← List.map_take, ← dataIds, ← length, Int.ofNat_inj]
  have all := List.count_eq_length (a := Finding.intact) (l := m.dataIds.map f)
  rw [List.length_map, List.forall_mem_map] at all
  rw [all]
  exact forall₂_congr fun _ _ ↦ eq_comm

end Metadata

theorem Finding.complaint?_eq_none_iff {id : Text} {finding : Finding} :
    finding.complaint? id = none ↔ finding = .intact := by
  cases finding <;> simp [complaint?]

theorem Finding.count_add_length (f : Text → Finding) (ids : List Text) :
    (ids.map f).count .intact + (ids.filterMap fun id ↦ (f id).complaint? id).length =
      ids.length := by
  induction ids with
  | nil => rfl
  | cons id ids ih =>
    rw [List.map_cons, List.length_cons, ← ih]
    by_cases hf : f id = .intact
    · have quiet : (f id).complaint? id = none := complaint?_eq_none_iff.2 hf
      rw [List.filterMap_cons_none (f := fun id ↦ (f id).complaint? id) quiet, hf,
        List.count_cons_self]
      omega
    · have loud : (f id).complaint? id ≠ none := fun h ↦ hf (complaint?_eq_none_iff.1 h)
      obtain ⟨text, complaint⟩ := Option.ne_none_iff_exists'.1 loud
      rw [List.filterMap_cons_some (f := fun id ↦ (f id).complaint? id) complaint,
        List.count_cons_of_ne hf, List.length_cons]
      omega

namespace Vault

variable {v : Vault} {fileId id : Text} {m : Metadata}

def finding (v : Vault) (id : Text) : Finding :=
  match v.loadShard id with
  | .ok none => .missing
  | .ok (some shard) => if shard.verify then .intact else .corrupted
  | .error _ => .unreadable

def complaint? (v : Vault) (id : Text) : Option Text :=
  (v.finding id).complaint? id

theorem finding_eq_intact_iff :
    v.finding id = .intact ↔ ∃ shard, v.loadShard id = .ok (some shard) ∧ shard.verify = true := by
  unfold finding
  split
  · next h => simp [h]
  · next shard h => by_cases hv : shard.verify = true <;> simp [h, hv]
  · next h => simp [h]

theorem inspect_eq (v : Vault) (id : Text) :
    v.inspect id = if v.shards.admits id then .ok (v.finding id) else .error .unencodable := by
  by_cases admitted : v.shards.admits id = true
  · rw [if_pos admitted, inspect, finding, loadShard, Store.get_eq, if_pos admitted, ok_bind]
    rcases v.shards.peek id with _ | record
    · rfl
    simp only []
    rcases Shard.decode record with fault | shard
    · rfl
    · by_cases he : shard.id = id
      · simp only [mapError_ok, ok_bind, he, if_true]
      · simp only [mapError_ok, ok_bind, he, if_false]
  · rw [if_neg admitted, inspect, loadShard, Store.get_eq, if_neg admitted]
    rfl

theorem shard_of_loadShard {shard : Shard} (h : v.loadShard id = .ok (some shard)) :
    shard.id = id := by
  obtain ⟨found, -, h⟩ := bind_eq_ok.1 h
  cases found with
  | none => cases h
  | some record =>
    obtain ⟨read, -, h⟩ := bind_eq_ok.1 h
    split at h
    · next he =>
      obtain rfl := Option.some.inj (Except.ok.inj h)
      exact he
    · cases h

theorem hasLayout_of_metadataOf (h : v.metadataOf fileId = .ok m) : m.HasLayout := by
  obtain ⟨found, -, h⟩ := bind_eq_ok.1 h
  cases found with
  | none => cases h
  | some bs => exact Metadata.hasLayout_of_decode h

theorem answer_auditFile (hm : v.metadataOf fileId = .ok m) : (auditFile fileId v).answer =
    if m.shardIds.all v.shards.admits then .ok (m.audit fileId (m.shardIds.map v.finding))
    else .error .unencodable := by
  change ((auditFile fileId).run v).1 = _
  rw [auditFile, Action.run_bind, Action.run_ask, hm]
  simp only []
  rw [Action.run_bind, Action.run_ask, mapM_eq_ite v.inspect_eq]
  by_cases admitted : m.shardIds.all v.shards.admits = true
  · rw [if_pos admitted, if_pos admitted]
    rfl
  · rw [if_neg admitted, if_neg admitted]

theorem audit_eq (hm : v.metadataOf fileId = .ok m) {a : Audit}
    (h : (auditFile fileId v).answer = .ok a) : a = m.audit fileId (m.shardIds.map v.finding) := by
  rw [answer_auditFile hm] at h
  split at h
  · exact (Except.ok.inj h).symm
  · cases h

theorem all_admits_iff {ids : List Text} :
    ids.all v.shards.admits = true ↔ ∀ id ∈ ids, ∃ record, v.shards.get id = .ok record := by
  rw [List.all_eq_true]
  refine forall₂_congr fun id _ ↦ ⟨fun h ↦ ⟨_, (Store.get_eq ..).trans (if_pos h)⟩, ?_⟩
  rintro ⟨record, h⟩
  exact (Store.admits_of_get h).1

theorem audit_of_get (hm : v.metadataOf fileId = .ok m)
    (readable : ∀ id ∈ m.shardIds, ∃ record, v.shards.get id = .ok record) :
    (auditFile fileId v).answer = .ok (m.audit fileId (m.shardIds.map v.finding)) :=
  (answer_auditFile hm).trans (if_pos (all_admits_iff.2 readable))

theorem audit_of_not_get (hm : v.metadataOf fileId = .ok m)
    (unreadable : ¬ ∀ id ∈ m.shardIds, ∃ record, v.shards.get id = .ok record) :
    (auditFile fileId v).answer = .error .unencodable :=
  (answer_auditFile hm).trans (if_neg fun admitted ↦ unreadable (all_admits_iff.1 admitted))

theorem dataShards_of_intact (h : ∀ id ∈ m.dataIds, v.finding id = .intact) :
    ∃ shards : List Shard, v.dataShards m = .ok (shards.map some) ∧ shards.map (·.id) = m.dataIds ∧
      ∀ shard ∈ shards, shard.verify = true := by
  generalize hids : m.dataIds = ids at h
  suffices loaded : ∃ shards : List Shard, ids.mapM v.loadShard = .ok (shards.map some) ∧
      shards.map (·.id) = ids ∧ ∀ shard ∈ shards, shard.verify = true by
    rwa [dataShards, hids]
  clear hids
  induction ids with
  | nil => exact ⟨[], rfl, rfl, List.forall_mem_nil _⟩
  | cons id ids ih =>
    obtain ⟨shard, hload, intact⟩ := finding_eq_intact_iff.1 (h id (by simp))
    obtain ⟨shards, hrest, hids, all⟩ := ih fun x hx ↦ h x (by simp [hx])
    refine ⟨shard :: shards, ?_, ?_, List.forall_mem_cons.2 ⟨intact, all⟩⟩
    · rw [List.mapM_cons, hload, ok_bind, hrest]
      rfl
    · rw [List.map_cons, hids, shard_of_loadShard hload]

theorem intact_of_retrieve {s : Settings} {data : Bytes} (hm : v.metadataOf fileId = .ok m)
    (h : s.retrieve fileId v = .ok data) : ∀ id ∈ m.dataIds, v.finding id = .intact := by
  obtain ⟨m', shards, hm', -, hshards, h⟩ := Settings.retrieve_eq_ok h
  obtain rfl := Except.ok.inj (hm.symm.trans hm')
  obtain ⟨l, hl, h⟩ := bind_eq_ok.1 h
  obtain ⟨c, hc, -⟩ := bind_eq_ok.1 h
  obtain ⟨payload, hpayload, -⟩ := bind_eq_ok.1 hc
  obtain ⟨l', hl', length⟩ := (hasLayout_of_metadataOf hm).layout_of
  obtain rfl := Except.ok.inj (hl.symm.trans hl')
  have loaded := mapM_eq_ok_iff.1 hshards
  have usable := Layout.exists_usable_of_length (loaded.length_eq.symm.trans length)
    (Layout.data_le_of_payload hpayload)
  intro id hid
  obtain ⟨i, hi, rfl⟩ := List.mem_iff_getElem.1 hid
  have hi' : i < shards.length := loaded.length_eq ▸ hi
  obtain ⟨shard, hs, hu⟩ := usable shards[i] (List.getElem_mem hi')
  exact finding_eq_intact_iff.2 ⟨shard, hs ▸ loaded.get hi hi', beq_iff_eq.2 hu.intact⟩

end Vault

namespace Metadata

theorem errors_eq_append (m : Metadata) (f : Text → Option Text) : m.shardIds.filterMap f =
    m.dataIds.filterMap f ++ (m.shardIds.drop m.dataShards.toNat).filterMap f := by
  rw [dataIds, ← List.filterMap_append, List.take_append_drop]

end Metadata

/-- A vault in memory with the record of an empty file and one shard of it, which has the flag of
parity or not. -/
theorem Vault.exists_flagged (isParity : Bool) : ∃ (v : Vault) (m : Metadata),
    v.metadataOf "f" = .ok m ∧ m.status.isReady = true ∧ m.dataIds = [shardId "f" 0] ∧
      m.dataShards = 1 ∧ m.parityShards = 1 ∧ (∀ id, ∃ record, v.shards.get id = .ok record) ∧
      v.loadShard (shardId "f" 0) = .ok (some (Shard.ofData "f" 0 isParity [])) := by
  have scalar : Text.isScalar "f" = true := by decide
  have record : ((Settings.least.metadataOf [] "a" none "f" .epoch 0).encode >>= Text.encode) =
      .ok _ := Settings.encode_metadataOf scalar (by decide) nofun (by decide) (by decide) (by decide)
  have writable := (Metadata.encode_eq_record.1 record).1
  obtain ⟨bs, hbs⟩ := Shard.exists_encode_ofData scalar (by decide) (show 0 < 0x100000000 by decide)
    isParity []
  refine ⟨{ Vault.fresh .epoch with
    shards := .memory [(shardId "f" 0, bs)] none
    metadata := .memory [("f", (Settings.least.metadataOf [] "a" none "f" .epoch 0).record)] none },
    _, Settings.metadataOf_of_record scalar DateTime.isWhole_epoch ?_ writable, rfl, rfl, rfl, rfl,
    fun id ↦ ⟨_, rfl⟩, Vault.loadShard_eq (isScalar_shardId scalar 0) ?_
      (Shard.decode_of_encode_ofData hbs) rfl⟩
  · exact (Entries.get?_cons _ _ _).trans (if_pos rfl)
  · exact (Entries.get?_cons _ _ _).trans (if_pos rfl)

/-- A file whose data shard is there is valid, whether the shard has the flag of parity or not. -/
theorem Vault.exists_flagged_valid (isParity : Bool) : ∃ (v : Vault) (m : Metadata) (a : Audit),
    v.metadataOf "f" = .ok m ∧ (auditFile "f" v).answer = .ok a ∧ a.isValid = true ∧
      m.dataIds = [shardId "f" 0] ∧ Layout.of m.dataShards m.parityShards = .ok Settings.least.layout ∧
      v.dataShards m = .ok [some (Shard.ofData "f" 0 isParity [])] := by
  obtain ⟨v, m, hm, -, ids, hd, hp, readable, load⟩ := exists_flagged isParity
  have layout := hasLayout_of_metadataOf hm
  refine ⟨v, m, _, hm, audit_of_get hm fun id _ ↦ readable id, ?_, ids, ?_, ?_⟩
  · rw [Metadata.isValid_audit_iff layout, ids, List.forall_mem_singleton]
    exact finding_eq_intact_iff.2 ⟨_, load, Shard.verify_ofData ..⟩
  · rw [hd, hp]
    rfl
  · rw [dataShards, ids, List.mapM_cons, load]
    rfl

/-- An audit finds every data shard of a valid file, each with its own hash. They fill the slots of
the file, so that a download gets past them, just if none of their records says that it is parity
and the ids that are listed first are those of the data shards, in any order. -/
theorem availableSlots_of_audit (s : Settings) (v : Vault) (fileId : Text) (m : Metadata) (a : Audit)
    (found : v.metadataOf fileId = .ok m) (audited : (auditFile fileId v).answer = .ok a)
    (valid : a.isValid = true) :
    ∃ (l : Layout) (shards : List Shard), Layout.of m.dataShards m.parityShards = .ok l ∧
      v.dataShards m = .ok (shards.map some) ∧ (∀ shard ∈ shards, shard.verify = true) ∧
      (Layout.availableSlots ((shards.map some).map (l.judge (some fileId))) = List.range l.data ↔
        (∀ shard ∈ shards, shard.isParity = false) ∧
        m.dataIds.Perm ((List.range l.data).map fun i : Nat ↦ shardId fileId i)) ∧
      (m.status.isReady = true →
        Layout.availableSlots ((shards.map some).map (l.judge (some fileId))) ≠ List.range l.data →
        ∃ n < l.data, (s.download fileId v).answer = .error (.notEnoughShards n l.data)) := by
  obtain rfl := Vault.audit_eq found audited
  have layout := Vault.hasLayout_of_metadataOf found
  obtain ⟨l, hl, length⟩ := layout.layout_of
  obtain ⟨shards, load, ids, all⟩ := Vault.dataShards_of_intact
    ((Metadata.isValid_audit_iff layout).1 valid)
  have count : shards.length = l.data := by rw [← length, ← ids, List.length_map]
  refine ⟨l, shards, hl, load, all, ids ▸ Layout.availableSlots_eq_range_iff_ids count all, ?_⟩
  intro ready empty
  have short := Nat.lt_of_not_le fun h ↦ empty (Layout.availableSlots_of_length count h)
  refine ⟨_, short, ?_⟩
  rw [Settings.answer_download, Settings.retrieve, found, ok_bind, ready, if_neg (by decide), load,
    ok_bind, Settings.rebuild, hl, ok_bind, Layout.reconstruct, Layout.payload_of_lt short]
  rfl

theorem availableSlots_of_audit_least : ∃ (v : Vault) (m : Metadata) (a : Audit) (l : Layout)
    (shards : List Shard), v.metadataOf "f" = .ok m ∧ (auditFile "f" v).answer = .ok a ∧
      a.isValid = true ∧ v.dataShards m = .ok (shards.map some) ∧
      Layout.availableSlots ((shards.map some).map (l.judge (some "f"))) = List.range l.data := by
  obtain ⟨v, m, a, hm, audited, valid, ids, layout, loaded⟩ := Vault.exists_flagged_valid false
  obtain ⟨l, shards, hl, load, -, slots, -⟩ :=
    availableSlots_of_audit .least v "f" m a hm audited valid
  refine ⟨v, m, a, l, shards, hm, audited, valid, load, slots.2 ⟨?_, ?_⟩⟩
  · have same := Except.ok.inj (loaded.symm.trans load)
    intro shard hs
    have hmem : some shard ∈ [some (Shard.ofData "f" 0 false [])] :=
      same ▸ List.mem_map_of_mem (f := some) hs
    rw [List.mem_singleton, Option.some.injEq] at hmem
    exact hmem ▸ rfl
  · obtain rfl := Except.ok.inj (layout.symm.trans hl)
    exact ids ▸ .refl _

/-- A data shard whose record says that it is parity counts as intact in an audit, though no
download uses it. -/
theorem not_availableSlots_of_isValid : ¬ ∀ (v : Vault) (fileId : Text) (m : Metadata) (a : Audit),
    v.metadataOf fileId = .ok m → (auditFile fileId v).answer = .ok a → a.isValid = true →
    ∃ (l : Layout) (shards : List (Option Shard)), Layout.of m.dataShards m.parityShards = .ok l ∧
      v.dataShards m = .ok shards ∧
      Layout.availableSlots (shards.map (l.judge (some fileId))) = List.range l.data := by
  intro assured
  obtain ⟨v, m, a, hm, audited, valid, -, layout, loaded⟩ := Vault.exists_flagged_valid true
  obtain ⟨l, shards, hl, load, slots⟩ := assured v "f" m a hm audited valid
  obtain rfl := Except.ok.inj (layout.symm.trans hl)
  obtain rfl := Except.ok.inj (loaded.symm.trans load)
  have filled : Layout.availableSlots (([Shard.ofData "f" 0 true []].map some).map
      (Settings.least.layout.judge (some "f"))) = List.range Settings.least.layout.data := slots
  have intact : ∀ shard ∈ [Shard.ofData "f" 0 true []], shard.verify = true :=
    List.forall_mem_singleton.2 (Shard.verify_ofData ..)
  have flags := ((Layout.availableSlots_eq_range_iff_ids rfl intact).1 filled).1
  exact absurd (flags _ List.mem_cons_self) (by decide)

/-- An audit of a file whose listed shards can all be looked up reports on each of them once and in
their order, those of the data first. The file is valid just if nothing is reported of the data
shards, and it is valid whenever it can be downloaded. If some shard cannot be looked up there is no
report, but the error of the lookup. -/
theorem auditFile_of_get (s : Settings) (v : Vault) (fileId : Text) (m : Metadata)
    (found : v.metadataOf fileId = .ok m) :
    ((∀ id ∈ m.shardIds, ∃ record, v.shards.get id = .ok record) →
      ∃ a, (auditFile fileId v).answer = .ok a ∧ a.checked = m.totalShards ∧
        a.checked = a.valid + a.errors.length ∧
        a.errors = m.dataIds.filterMap v.complaint? ++
          (m.shardIds.drop m.dataShards.toNat).filterMap v.complaint? ∧
        (∀ id, v.complaint? id = none ↔
          ∃ shard, v.loadShard id = .ok (some shard) ∧ shard.verify = true) ∧
        (a.isValid = true ↔ m.dataIds.filterMap v.complaint? = []) ∧
        ∀ data, (s.download fileId v).answer = .ok data → a.isValid = true) ∧
      ((¬ ∀ id ∈ m.shardIds, ∃ record, v.shards.get id = .ok record) →
        (auditFile fileId v).answer = .error .unencodable) := by
  have layout := Vault.hasLayout_of_metadataOf found
  refine ⟨fun readable ↦ ?_, Vault.audit_of_not_get found⟩
  have valid : (m.audit fileId (m.shardIds.map v.finding)).isValid = true ↔ _ :=
    Metadata.isValid_audit_iff layout
  have errors := m.errors_audit fileId v.finding
  refine ⟨_, Vault.audit_of_get found readable, layout.total.symm, ?_, ?_, ?_, ?_, ?_⟩
  · rw [errors]
    exact (Finding.count_add_length v.finding m.shardIds).symm
  · rw [errors]
    exact m.errors_eq_append v.complaint?
  · intro id
    exact Finding.complaint?_eq_none_iff.trans Vault.finding_eq_intact_iff
  · rw [valid, List.filterMap_eq_nil_iff]
    exact forall₂_congr fun id _ ↦ Finding.complaint?_eq_none_iff.symm
  · intro data downloaded
    rw [Settings.answer_download] at downloaded
    exact valid.2 (Vault.intact_of_retrieve found downloaded)

/-- The record of an empty file whose shards are listed under lone surrogates. -/
def Metadata.strayed : Metadata :=
  { Settings.least.metadataOf [] "a" none "f" .epoch 0 with
    shardIds := [[CodePoint.ofNat 0xD800], [CodePoint.ofNat 0xD800]] }

theorem Vault.exists_strayed : ∃ v : Vault, v.metadataOf "f" = .ok .strayed ∧
    ¬ ∀ id ∈ Metadata.strayed.shardIds, ∃ record, v.shards.get id = .ok record := by
  have layout : Metadata.strayed.HasLayout := ⟨rfl, by decide, by decide, rfl⟩
  have writable : Metadata.strayed.toJson.isWritable = true :=
    Metadata.isWritable_toJson (Json.isWritable_int (by decide)) (Json.isWritable_int (by decide))
      (Json.isWritable_int (by decide)) (Json.isWritable_int (by decide))
      (Json.isWritable_int (by decide))
  refine ⟨{ Vault.fresh .epoch with
    shards := .table []
    metadata := .memory [("f", Metadata.strayed.record)] none }, ?_, ?_⟩
  · exact layout.metadataOf DateTime.isWhole_epoch writable (by decide)
      ((Entries.get?_cons _ _ _).trans (if_pos rfl))
  · intro readable
    obtain ⟨record, h⟩ := readable [CodePoint.ofNat 0xD800] List.mem_cons_self
    cases h

theorem auditFile_of_get_least :
    (∃ (v : Vault) (m : Metadata), v.metadataOf "f" = .ok m ∧
      (∀ id ∈ m.shardIds, ∃ record, v.shards.get id = .ok record) ∧
      ∃ a, (auditFile "f" v).answer = .ok a ∧ a.checked = m.totalShards ∧
        a.checked = a.valid + a.errors.length) ∧
    ∃ v : Vault, v.metadataOf "f" = .ok .strayed ∧
      (auditFile "f" v).answer = .error .unencodable := by
  constructor
  · obtain ⟨v, m, hm, -, -, -, -, readable, -⟩ := Vault.exists_flagged false
    obtain ⟨a, answer, checked, sum, -⟩ :=
      (auditFile_of_get .least v "f" m hm).1 fun id _ ↦ readable id
    exact ⟨v, m, hm, fun id _ ↦ readable id, a, answer, checked, sum⟩
  · obtain ⟨v, found, unreadable⟩ := Vault.exists_strayed
    exact ⟨v, found, (auditFile_of_get .least v "f" .strayed found).2 unreadable⟩

/-- An audit fails on shard ids that cannot be looked up, as those with lone surrogates in a table
of a database. -/
theorem not_exists_audit : ¬ ∀ (v : Vault) (fileId : Text) (m : Metadata),
    v.metadataOf fileId = .ok m → ∃ a, (auditFile fileId v).answer = .ok a ∧
      a.checked = m.totalShards ∧ a.checked = a.valid + a.errors.length := by
  intro reported
  obtain ⟨v, found, unreadable⟩ := Vault.exists_strayed
  obtain ⟨a, answer, -⟩ := reported v "f" .strayed found
  rw [Vault.audit_of_not_get found unreadable] at answer
  cases answer

end ShardVault
