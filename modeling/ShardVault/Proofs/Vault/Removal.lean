import ShardVault.Proofs.Vault.Interruption

namespace ShardVault

theorem isPrefixOf_shardId (fileId : Text) (i : Int) :
    (shardPrefix fileId).isPrefixOf (shardId fileId i) = true :=
  List.isPrefixOf_iff_prefix.2 ⟨Text.ofInt i, rfl⟩

namespace Vault

/-- The vault without the shards, the record and the listing record under an id. -/
def without (v : Vault) (fileId : Text) : Vault :=
  { v with
    shards := v.shards.drop (shardPrefix fileId).isPrefixOf
    metadata := v.metadata.drop (· == fileId)
    index := v.index.map (·.drop (· == fileId)) }

/-- The id can be looked up in the store of metadata and in the file index. -/
def admits (v : Vault) (fileId : Text) : Bool :=
  v.metadata.admits fileId && v.index.all (·.admits fileId)

structure Lacks (v : Vault) (fileId : Text) : Prop where
  shards : ∀ key ∈ v.shards.keys, (shardPrefix fileId).isPrefixOf key = false
  metadata : v.metadata.peek fileId = none
  index : ∀ index, v.index = some index → index.peek fileId = none

structure SameOthers (v : Vault) (fileId : Text) (w : Vault) : Prop where
  shards : ∀ key, (shardPrefix fileId).isPrefixOf key = false →
    w.shards.peek key = v.shards.peek key
  metadata : ∀ key, key ≠ fileId → w.metadata.peek key = v.metadata.peek key
  index : ∀ key, key ≠ fileId → w.index.map (·.peek key) = v.index.map (·.peek key)

/-- The stores of the two vaults hold the same in the same order. -/
structure SameShelves (v w : Vault) : Prop where
  shards : w.shards.shelf = v.shards.shelf
  metadata : w.metadata.shelf = v.metadata.shelf
  index : w.index.map (·.shelf) = v.index.map (·.shelf)

variable {v w : Vault} {fileId : Text}

theorem lacks_without (v : Vault) (fileId : Text) : (v.without fileId).Lacks fileId where
  shards := fun _ hk ↦ (Store.mem_keys_drop.1 hk).1
  metadata := (v.metadata.peek_drop _ fileId).trans (if_pos (beq_self_eq_true fileId))
  index := by
    intro index hi
    obtain ⟨before, -, rfl⟩ := Option.map_eq_some_iff.1 hi
    exact (before.peek_drop _ fileId).trans (if_pos (beq_self_eq_true fileId))

theorem sameOthers_without (v : Vault) (fileId : Text) : v.SameOthers fileId (v.without fileId) where
  shards := fun key hk ↦ (v.shards.peek_drop _ key).trans (if_neg (by simp [hk]))
  metadata := fun key hk ↦ (v.metadata.peek_drop _ key).trans (if_neg (by simpa using hk))
  index := by
    intro key hk
    rw [without, Option.map_map]
    congr 1
    funext index
    exact (index.peek_drop _ key).trans (if_neg (by simpa using hk))

theorem Lacks.without_eq (h : v.Lacks fileId) : v.without fileId = v := by
  have absent {store : Store} (hp : store.peek fileId = none) : store.drop (· == fileId) = store :=
    Store.drop_eq_self fun key hk ↦ by
      obtain ⟨bs, hb⟩ := Store.mem_keys_iff.1 hk
      rw [beq_eq_false_iff_ne]
      rintro rfl
      rw [hp] at hb
      cases hb
  obtain ⟨shards, metadata, index, clock, nonces⟩ := v
  rw [without, Store.drop_eq_self h.shards, absent h.metadata]
  congr 1
  rcases index with _ | index
  · rfl
  · exact congrArg some (absent (h.index index rfl))

theorem without_without (v : Vault) (fileId : Text) :
    (v.without fileId).without fileId = v.without fileId :=
  (v.lacks_without fileId).without_eq

@[simp] theorem admits_without (v : Vault) (fileId id : Text) :
    (v.without fileId).admits id = v.admits id := by
  rw [admits, admits, without]
  rcases v.index with _ | index <;> simp

theorem admits_of_isScalar (v : Vault) (h : fileId.isScalar = true) : v.admits fileId = true := by
  rw [admits, Store.admits_of_isScalar _ h]
  rcases v.index with _ | index
  · rfl
  · exact index.admits_of_isScalar h

theorem SameShelves.exists_index (h : v.SameShelves w) {index : Store} (hi : w.index = some index) :
    ∃ before, v.index = some before ∧ before.keys = index.keys := by
  have same := h.index
  rw [hi] at same
  obtain ⟨before, hb, shelf⟩ := Option.map_eq_some_iff.1 same.symm
  exact ⟨before, hb, by rw [Store.keys, Store.entries, shelf, Store.keys, Store.entries]⟩

theorem SameStores.sameShelves_without (h : v.SameStores w) (fileId : Text) :
    (v.without fileId).SameShelves (w.without fileId) := by
  obtain ⟨shards, metadata, index⟩ := h
  exact ⟨by rw [without, shards]; rfl, by rw [without, metadata]; rfl,
    by rw [without, index]; rfl⟩

/-- All that is stored is of files with the ids given, which are hashes. -/
structure OnlyHolds (v : Vault) (s : Settings) (ids : List Text) : Prop where
  intact : v.Intact s ids
  hex : ∀ id ∈ ids, ∃ message, id = Sha256.hex message
  listed : ∀ index, v.index = some index → ∀ key ∈ index.keys, key ∈ ids

/-- The vault, or the vault with bytes for the record under an id that make no record. -/
inductive Spoiled (v : Vault) (fileId : Text) : Vault → Prop
  | same : Spoiled v fileId v
  | record {bs : Bytes} {fault : RecordFault} {shelf : Shelf}
      (corrupt : Metadata.decode (.bytes bs) = .error (.corruptMetadata fault))
      (put : v.metadata.shelf.put fileId bs = .ok shelf) :
      Spoiled v fileId { v with metadata := ⟨shelf, v.metadata.room⟩ }

variable {s : Settings} {ids named : List Text}

theorem run_deleteFile_without (admitted : v.metadata.admits fileId = true)
    (hnamed : (namedShards fileId (v.metadata.peek fileId)).run v = (.ok named, v))
    (all : named ≠ [] → ∀ key ∈ v.shards.keys, key ∈ named ↔
      (shardPrefix fileId).isPrefixOf key = true)
    (listed : ∀ key ∈ named, v.shards.admits key = true)
    (prefixed : ∀ key ∈ v.shards.keys, (shardPrefix fileId).isPrefixOf key = true →
      v.shards.admits key = true)
    (unlisted : ∀ index, v.index = some index → index.admits fileId = false →
      fileId ∉ index.keys) :
    (deleteFile fileId).run v = (if v.admits fileId then .ok (v.metadata.peek fileId).isSome
      else .error .unencodable, v.without fileId) := by
  obtain ⟨removed, hremoved⟩ : ∃ removed, removed = if named.isEmpty then
    v.shards.keys.filter (shardPrefix fileId).isPrefixOf else named := ⟨_, rfl⟩
  have own : ∀ key ∈ removed, v.shards.admits key = true := by
    intro key hk
    rw [hremoved] at hk
    split at hk
    · obtain ⟨hk, begins⟩ := List.mem_filter.1 hk
      exact prefixed key hk begins
    · exact listed key hk
  -- Named or found, the shards that are removed are all those whose keys begin like them.
  have whole : v.shards.drop removed.contains = v.shards.drop (shardPrefix fileId).isPrefixOf := by
    refine Store.drop_congr fun key hk ↦ ?_
    rw [Bool.eq_iff_iff, List.contains_iff_mem, hremoved]
    split
    · exact List.mem_filter.trans (and_iff_right hk)
    · next some => exact all (by simpa using some) key hk
  rw [run_deleteFile_eq admitted hnamed hremoved own, whole]
  simp only [admits, admitted, Bool.true_and]
  by_cases looked : v.index.all (·.admits fileId) = true
  · simp only [if_pos looked]
    rfl
  · have kept : v.index.map (·.drop (· == fileId)) = v.index := by
      rcases hi : v.index with _ | index
      · rfl
      · rw [hi, Option.all_some, Bool.not_eq_true] at looked
        refine congrArg some (Store.drop_eq_self fun key hk ↦ ?_)
        rw [beq_eq_false_iff_ne]
        rintro rfl
        exact unlisted index hi looked hk
    simp only [if_neg looked]
    rw [without, kept]

theorem Spoiled.without_eq (h : v.Spoiled fileId w) : w.without fileId = v.without fileId := by
  cases h with
  | same => rfl
  | record corrupt put =>
    have shelf := Store.shelf_drop_own (Store.put_of_shelf put)
    exact congrArg (fun shelf ↦ { v.without fileId with metadata := ⟨shelf, v.metadata.room⟩ }) shelf

namespace OnlyHolds

theorem isScalar_id (h : v.OnlyHolds s ids) {id : Text} (hid : id ∈ ids) : id.isScalar = true := by
  obtain ⟨message, rfl⟩ := h.hex id hid
  exact Sha256.isScalar_hex message

theorem eq_shardId (h : v.OnlyHolds s ids) {key : Text} (hk : key ∈ v.shards.keys)
    (begins : (shardPrefix fileId).isPrefixOf key = true) :
    fileId ∈ ids ∧ ∃ i < s.layout.total, key = shardId fileId i := by
  obtain ⟨id, hid, i, hi, rfl⟩ := h.intact.key key hk
  obtain ⟨message, hmessage⟩ := h.hex id hid
  obtain rfl := eq_of_shardPrefix (hmessage ▸ Sha256.lowLine_notMem_hex message) begins
  exact ⟨hid, i, hi, rfl⟩

theorem mem_of_record (h : v.OnlyHolds s ids) (hk : fileId ∈ v.metadata.keys) : fileId ∈ ids := by
  obtain ⟨bs, hp⟩ := Store.mem_keys_iff.1 hk
  exact (h.intact.record fileId bs hp).1

theorem exists_named (h : v.OnlyHolds s ids) (spoiled : v.Spoiled fileId w) :
    ∃ named, (namedShards fileId (w.metadata.peek fileId)).run w = (.ok named, w) ∧
      (named = [] ∨ fileId ∈ ids ∧
        named = (List.range s.layout.total).map fun i : Nat ↦ shardId fileId i) := by
  cases spoiled with
  | same =>
    rcases hp : v.metadata.peek fileId with _ | bs
    · exact ⟨[], rfl, .inl rfl⟩
    · obtain ⟨hid, data, name, folder, createdAt, size, hd⟩ := h.intact.record fileId bs hp
      refine ⟨_, ?_, .inr ⟨hid, rfl⟩⟩
      simp only [namedShards, hd]
      rfl
  | @record bs fault shelf corrupt put =>
    have hp : (⟨shelf, v.metadata.room⟩ : Store).peek fileId = some bs :=
      (Store.peek_put (Store.put_of_shelf put) fileId).trans (if_pos rfl)
    -- A spoiled record names no shards, so they are found by the form of their keys.
    refine ⟨[], ?_, .inl rfl⟩
    simp only [hp, namedShards, corrupt]
    rfl

theorem lacks_of_notMem (h : v.OnlyHolds s ids) (new : fileId ∉ ids) : v.Lacks fileId where
  shards := by
    intro key hk
    by_contra begins
    exact new (h.eq_shardId hk (by simpa using begins)).1
  metadata := Entries.get?_eq_none_iff.2 fun hk ↦ new (h.mem_of_record hk)
  index := fun index hi ↦ Entries.get?_eq_none_iff.2 fun hk ↦ new (h.listed index hi fileId hk)

theorem lacks_of_not_admits (h : v.OnlyHolds s ids) (spoiled : v.Spoiled fileId w)
    (unknown : w.metadata.admits fileId = false) : w.Lacks fileId := by
  cases spoiled with
  | same =>
    refine h.lacks_of_notMem fun hid ↦ ?_
    rw [Store.admits_of_isScalar _ (h.isScalar_id hid)] at unknown
    cases unknown
  | record corrupt put =>
    have known := Store.admits_of_put (Store.put_of_shelf put)
    exact absurd (known.symm.trans unknown) nofun

/-- A deletion leaves the vault without what is under its id, even if the record was spoiled, and
answers whether there was a record unless the id cannot be looked up. -/
theorem run_deleteFile (h : v.OnlyHolds s ids) (spoiled : v.Spoiled fileId w) :
    (deleteFile fileId).run w = (if w.admits fileId then .ok (w.metadata.peek fileId).isSome
      else .error .unencodable, w.without fileId) := by
  by_cases admitted : w.metadata.admits fileId = true
  swap
  · rw [Bool.not_eq_true] at admitted
    have get : (Action.ask (·.metadata.get fileId)).run w = (.error .unencodable, w) := by
      rw [Action.run_ask, Store.get_eq, admitted]
      rfl
    rw [deleteFile, Action.run_bind_error get, (h.lacks_of_not_admits spoiled admitted).without_eq,
      admits, admitted]
    rfl
  obtain ⟨named, hnamed, listed⟩ := h.exists_named spoiled
  have shards : w.shards = v.shards := by cases spoiled <;> rfl
  have index : w.index = v.index := by cases spoiled <;> rfl
  refine run_deleteFile_without admitted hnamed ?_ ?_ ?_ ?_
  · intro some key hk
    obtain ⟨hid, rfl⟩ := listed.resolve_left some
    constructor
    · intro hm
      obtain ⟨i, -, rfl⟩ := List.mem_map.1 hm
      exact isPrefixOf_shardId fileId i
    · intro begins
      obtain ⟨-, i, hi, rfl⟩ := h.eq_shardId (shards ▸ hk) begins
      exact List.mem_map.2 ⟨i, List.mem_range.2 hi, rfl⟩
  · intro key hk
    rcases listed with rfl | ⟨hid, rfl⟩
    · cases hk
    obtain ⟨i, -, rfl⟩ := List.mem_map.1 hk
    exact Store.admits_of_isScalar _ (isScalar_shardId (h.isScalar_id hid) i)
  · intro key hk begins
    obtain ⟨hid, i, -, rfl⟩ := h.eq_shardId (shards ▸ hk) begins
    exact Store.admits_of_isScalar _ (isScalar_shardId (h.isScalar_id hid) i)
  · intro i hi unknown hk
    rw [Store.admits_of_isScalar _ (h.isScalar_id (h.listed i (index ▸ hi) fileId hk))] at unknown
    cases unknown

theorem delete (h : v.OnlyHolds s ids) (fileId : Text) :
    (deleteFile fileId v).vault.OnlyHolds s ids := by
  have after : (deleteFile fileId v).vault = v.without fileId :=
    congrArg Prod.snd (h.run_deleteFile .same)
  refine ⟨h.intact.delete h.hex fileId, h.hex, ?_⟩
  rw [after]
  intro index hi key hk
  obtain ⟨before, hb, rfl⟩ := Option.map_eq_some_iff.1 hi
  exact h.listed before hb key (Store.mem_keys_drop.1 hk).2

end OnlyHolds

end Vault

namespace Settings

variable {s : Settings} {v : Vault} {data : Bytes} {name id : Text} {folder : Option Text}
  {p : Prepared}

theorem shelf_drop_writeShards {l : Layout} {fileId : Text} {payload : Bytes} {shards : List Shard}
    (cut : l.IsCut fileId payload shards) (store : Store) :
    ((store.writeShards shards).2.drop (shardPrefix fileId).isPrefixOf).shelf =
      (store.drop (shardPrefix fileId).isPrefixOf).shelf := by
  refine Store.writeShards_induct
    (P := fun x ↦ (x.drop (shardPrefix fileId).isPrefixOf).shelf = _) rfl ?_
  intro shard hs x x' bs hx hbs hput
  obtain ⟨i, -, hi⟩ := cut.exists_id hs
  exact (Store.shelf_drop_put hput (hi ▸ isPrefixOf_shardId fileId i)).trans hx

theorem Prepares.sameShelves (h : s.Prepares v data name p) (folder : Option Text) :
    (v.without p.id).SameShelves ((s.upload data name folder v).vault.without p.id) := by
  have shards := shelf_drop_writeShards h.isCut v.shards
  change (v.without p.id).SameShelves (((s.upload data name folder).run v).2.without p.id)
  rw [h.run_upload, Settings.write]
  simp only [Vault.prepared]
  -- By the step that fails: a shard, the record, or the listing; or none of them.
  rcases hs : v.shards.writeShards p.shards with ⟨failure | _, store⟩
  · rw [hs] at shards
    exact ⟨shards, rfl, rfl⟩
  rw [hs] at shards
  simp only []
  rcases hm : ((p.metadata s data name folder).encode >>= Text.encode) >>= v.metadata.put p.id
    with failure | metadata
  · exact ⟨shards, rfl, rfl⟩
  obtain ⟨bs, -, hput⟩ := bind_eq_ok.1 hm
  have record := Store.shelf_drop_own hput
  simp only []
  rw [run_listing_eq]
  rcases hi : v.index with _ | index
  · exact ⟨shards, record, by simp only [Vault.without, hi]⟩
  rcases hl : Index.save index (p.metadata s data name folder).listing with failure | index'
  · simp only [hl]
    exact ⟨shards, record, by simp only [Vault.without, hi]⟩
  simp only [hl]
  obtain ⟨t, -, hl⟩ := bind_eq_ok.1 hl
  obtain ⟨written, -, hl⟩ := bind_eq_ok.1 hl
  have listing : (index'.drop (· == p.id)).shelf = (index.drop (· == p.id)).shelf :=
    Store.shelf_drop_own hl
  refine ⟨shards, record, ?_⟩
  simp only [Vault.without, hi, Option.map_some, listing]

theorem sameShelves_upload (s : Settings) (folder : Option Text) (hid : id ∈ v.newIds data name) :
    (v.without id).SameShelves ((s.upload data name folder v).vault.without id) := by
  rcases s.prepares_or_fails v data name folder with ⟨p, prepared⟩ | ⟨failure, w, hrun, same⟩
  · rw [Vault.newIds_of_prepares prepared] at hid
    obtain rfl := List.mem_singleton.1 hid
    exact prepared.sameShelves folder
  · rw [show (s.upload data name folder v).vault = w from congrArg Prod.snd hrun]
    exact same.sameShelves_without id

/-- The vaults that come of empty ones by uploads and deletions, while stores may get full and have
room again, and all ids that were made for files on the way. -/
inductive Visited (s : Settings) : List Text → Vault → Prop
  | empty (v : Vault) (shards : v.shards.entries = []) (metadata : v.metadata.entries = [])
      (index : ∀ index, v.index = some index → index.entries = []) : Visited s [] v
  | upload {ids : List Text} {v : Vault} (source : KeySource) (data : Bytes) (name : Text)
      (folder : Option Text) (before : Visited s ids v) :
      Visited s (v.newIds data name ++ ids)
        ((s.withSource source).upload data name folder v).vault
  | delete {ids : List Text} {v : Vault} (fileId : Text) (before : Visited s ids v) :
      Visited s ids (deleteFile fileId v).vault
  | aside {ids : List Text} {v w : Vault} (same : v.SameShelves w) (before : Visited s ids v) :
      Visited s ids w

variable {ids : List Text} {w : Vault} {fileId : Text}

theorem Visited.reachable (h : s.Visited ids v) : s.Reachable ids v := by
  induction h with
  | empty v shards metadata index => exact .empty v shards metadata
  | upload source data name folder before ih => exact ih.step source (.upload data name folder)
  | delete fileId before ih => exact ih.step s.encryptor.deriver.source (.delete fileId)
  | aside same before ih =>
    exact ih.step s.encryptor.deriver.source (.aside _ same.shards same.metadata)

theorem Visited.onlyHolds (h : s.Visited ids v) : v.OnlyHolds s ids := by
  have reachable := h.reachable
  refine ⟨reachable.intact, reachable.exists_hex, ?_⟩
  clear reachable
  induction h with
  | empty v shards metadata index =>
    intro i hi key hk
    rw [Store.keys, index i hi] at hk
    cases hk
  | @upload ids v source data name folder before ih =>
    intro i hi key hk
    rcases (s.withSource source).prepares_or_fails v data name folder with
      ⟨p, prepared⟩ | ⟨failure, w, hrun, -, -, index⟩
    · rw [Vault.newIds_of_prepares prepared]
      by_cases own : key = p.id
      · exact own ▸ List.mem_cons_self
      · have left : (((s.withSource source).upload data name folder v).vault.without p.id).index =
            some (i.drop (· == p.id)) := by rw [Vault.without, hi, Option.map_some]
        obtain ⟨i', hi', keys⟩ := (prepared.sameShelves folder).exists_index left
        obtain ⟨before, hb, rfl⟩ := Option.map_eq_some_iff.1 hi'
        have kept : key ∈ (i.drop (· == p.id)).keys :=
          Store.mem_keys_drop.2 ⟨beq_eq_false_iff_ne.2 own, hk⟩
        exact List.mem_append_right _ (ih before hb key (Store.mem_keys_drop.1 (keys ▸ kept)).2)
    · have after : ((s.withSource source).upload data name folder v).vault = w :=
        congrArg Prod.snd hrun
      rw [after, index] at hi
      exact List.mem_append_right _ (ih i hi key hk)
  | delete fileId before ih =>
    have reachable := before.reachable
    exact (Vault.OnlyHolds.delete ⟨reachable.intact, reachable.exists_hex, ih⟩ fileId).listed
  | aside same before ih =>
    intro i hi key hk
    obtain ⟨before, hb, keys⟩ := same.exists_index hi
    exact ih before hb key (keys ▸ hk)

/-- A deletion in any such vault, even after the record of its file was spoiled, takes away all that
is under its id and keeps all else. It answers whether there was a record, unless the id cannot be
looked up, and another deletion finds nothing more. An upload under a new id, whether it has failed or
not, leaves no trace after the deletion of its file. -/
theorem Visited.removal (h : s.Visited ids v) (spoiled : v.Spoiled fileId w) :
    (deleteFile fileId).run w = (if w.admits fileId then .ok (w.metadata.peek fileId).isSome
      else .error .unencodable, w.without fileId) ∧
    (w.without fileId).Lacks fileId ∧ w.SameOthers fileId (w.without fileId) ∧
    (deleteFile fileId).run (w.without fileId) =
      (if w.admits fileId then .ok false else .error .unencodable, w.without fileId) ∧
    (∀ id, id ∉ ids → v.Lacks id) ∧
    ∀ source data name folder, ∀ id ∈ v.newIds data name, v.Lacks id →
      v.SameShelves
        (deleteFile id ((s.withSource source).upload data name folder v).vault).vault := by
  have holds := h.onlyHolds
  refine ⟨holds.run_deleteFile spoiled, w.lacks_without fileId, w.sameOthers_without fileId, ?_,
    fun id ↦ holds.lacks_of_notMem, ?_⟩
  · -- Without the record it does not matter any more whether it was spoiled.
    have after : (deleteFile fileId).run v = (_, v.without fileId) := holds.run_deleteFile .same
    have holds' := (h.delete fileId).onlyHolds
    have vault : (deleteFile fileId v).vault = w.without fileId :=
      (congrArg Prod.snd after).trans spoiled.without_eq.symm
    rw [vault] at holds'
    rw [holds'.run_deleteFile .same, w.admits_without, w.without_without,
      (w.lacks_without fileId).metadata]
    rfl
  · intro source data name folder id hid lacks
    have vault : (deleteFile id ((s.withSource source).upload data name folder v).vault).vault =
        ((s.withSource source).upload data name folder v).vault.without id :=
      congrArg Prod.snd ((h.upload source data name folder).onlyHolds.run_deleteFile .same)
    rw [vault]
    have same := (s.withSource source).sameShelves_upload folder hid
    rwa [lacks.without_eq] at same

theorem Visited.removal_least : ∃ (v : Vault) (id : Text) (shelf : Shelf),
    least.Visited [id] v ∧ v.metadata.shelf.put id [] = .ok shelf ∧
    (deleteFile id).run { v with metadata := ⟨shelf, v.metadata.room⟩ } =
      (.ok true, v.without id) ∧
    (deleteFile id).run (v.without id) = (.ok false, v.without id) := by
  obtain ⟨id, hid⟩ := exists_fileId [7] (show Text.isScalar "a" = true by decide) .epoch
  have scalar := isScalar_of_fileId hid
  have accepts : least.Accepts [7] "a" none id .epoch :=
    accepts_of_least rfl (by decide) (by decide) (by decide) hid (by decide)
  obtain ⟨p, prepared, rfl, -⟩ := accepts.prepares (v := .fresh .epoch) rfl hid rfl rfl
  have visited := (Visited.empty (s := least) (.fresh .epoch) rfl rfl nofun).upload
    least.encryptor.deriver.source [7] "a" none
  rw [Vault.newIds_of_prepares prepared, List.append_nil] at visited
  generalize ((least.withSource _).upload [7] "a" none (.fresh .epoch)).vault = v at visited
  obtain ⟨shelf, hput⟩ := Store.exists_put v.metadata.shelf scalar []
  have corrupt : Metadata.decode (.bytes []) = .error (.corruptMetadata .notJson) := rfl
  have spoiled : v.Spoiled p.id { v with metadata := ⟨shelf, v.metadata.room⟩ } :=
    .record corrupt hput
  have there : (⟨shelf, v.metadata.room⟩ : Store).peek p.id = some [] :=
    (Store.peek_put (Store.put_of_shelf hput) p.id).trans (if_pos rfl)
  obtain ⟨first, -, -, second, -⟩ := Visited.removal visited spoiled
  rw [if_pos (Vault.admits_of_isScalar _ scalar), there, spoiled.without_eq] at first
  rw [if_pos (Vault.admits_of_isScalar _ scalar), spoiled.without_eq] at second
  exact ⟨v, p.id, shelf, visited, hput, first, second⟩

/-- A lone surrogate is nowhere in tables without rows, but it is not looked up in them either. -/
theorem not_removal_of_surrogate : ∃ (v : Vault) (id : Text), least.Visited [] v ∧ v.Lacks id ∧
    (deleteFile id).run v = (.error .unencodable, v.without id) := by
  let v : Vault := { Vault.fresh .epoch with shards := .table [], metadata := .table [] }
  have visited : least.Visited [] v := .empty v rfl rfl nofun
  have refused : v.admits [CodePoint.ofNat 0xD800] = false := by decide
  refine ⟨v, [CodePoint.ofNat 0xD800], visited, visited.onlyHolds.lacks_of_notMem nofun, ?_⟩
  rw [visited.onlyHolds.run_deleteFile .same, refused, if_neg Bool.false_ne_true]

end Settings

end ShardVault
