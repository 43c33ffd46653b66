import ShardVault.Proofs.Bytes.Written
import ShardVault.Proofs.Store.Drop
import ShardVault.Proofs.Vault.Actions
import ShardVault.Proofs.Vault.Download
import ShardVault.Vault.Delete

namespace ShardVault

theorem takeWhile_append_shard {fileId : Text} (h : CodePoint.ofChar '_' ∉ fileId) (rest : Text) :
    (fileId ++ Text.ofString "_shard_" ++ rest).takeWhile (· != CodePoint.ofChar '_') = fileId := by
  rw [List.append_assoc, List.takeWhile_append_of_pos]
  · rw [show (Text.ofString "_shard_" ++ rest) = CodePoint.ofChar '_' ::
        (Text.ofString "shard_" ++ rest) from rfl, List.takeWhile_cons]
    simp
  · intro c hc
    simp only [bne_iff_ne, ne_eq]
    rintro rfl
    exact h hc

theorem eq_of_shardPrefix {fileId other : Text} (ho : CodePoint.ofChar '_' ∉ other) {i : Int}
    (h : (shardPrefix fileId).isPrefixOf (shardId other i) = true) : fileId = other := by
  obtain ⟨rest, hrest⟩ := List.isPrefixOf_iff_prefix.1 h
  have hf : CodePoint.ofChar '_' ∉ fileId := by
    have count := congrArg (List.count (CodePoint.ofChar '_')) hrest
    have two : List.count (CodePoint.ofChar '_') (Text.ofString "_shard_") = 2 := by decide
    simp only [shardPrefix, shardId, List.count_append, two,
      List.count_eq_zero_of_not_mem ho,
      List.count_eq_zero_of_not_mem (Text.lowLine_notMem_ofInt i)] at count
    exact fun hm ↦ absurd (List.count_pos_iff.2 hm) (by omega)
  have taken := congrArg (List.takeWhile (· != CodePoint.ofChar '_')) hrest
  rwa [shardPrefix, takeWhile_append_shard hf, shardId, takeWhile_append_shard ho] at taken

/-- What is left of a store after keys were removed from it. -/
structure Store.Without (s : Store) (keys : List Text) (s' : Store) : Prop where
  gone : ∀ key ∈ keys, s'.peek key = none
  kept : ∀ key, key ∉ keys → s'.peek key = s.peek key
  room : s'.room = s.room
  sound : s.Sound → s'.Sound

theorem Store.Without.of_peek {s s' : Store} {keys : List Text} (h : s.Without keys s') {key : Text}
    {bs : Bytes} (hp : s'.peek key = some bs) : key ∉ keys ∧ s.peek key = some bs := by
  have hk : key ∉ keys := by
    intro hm
    rw [h.gone key hm] at hp
    cases hp
  exact ⟨hk, h.kept key hk ▸ hp⟩

theorem Store.without_drop (s : Store) (keys : List Text) :
    s.Without keys (s.drop keys.contains) where
  gone := fun key hk ↦ (s.peek_drop _ key).trans (if_pos (List.contains_iff_mem.2 hk))
  kept := fun key hk ↦ (s.peek_drop _ key).trans (if_neg fun hc ↦ hk (List.contains_iff_mem.1 hc))
  room := rfl
  sound := fun hs ↦ hs.drop _

theorem Store.without_drop_one (s : Store) (key : Text) : s.Without [key] (s.drop (· == key)) := by
  have one : s.drop (· == key) = s.drop [key].contains := Store.drop_congr fun k _ ↦ by
    rw [List.contains_cons, List.contains_nil, Bool.or_false]
  exact one ▸ s.without_drop [key]

theorem run_removeShards {ids : List Text} {v : Vault}
    (h : ∀ id ∈ ids, v.shards.admits id = true) :
    ∃ count, (removeShards ids).run v =
      (.ok count, { v with shards := v.shards.drop ids.contains }) := by
  induction ids generalizing v with
  | nil =>
    have none : v.shards.drop ([] : List Text).contains = v.shards :=
      Store.drop_eq_self fun _ _ ↦ rfl
    exact ⟨0, by rw [none]; rfl⟩
  | cons key ids ih =>
    have first : (Action.onShards fun s ↦ s.delete key).run v =
        (.ok (v.shards.peek key).isSome, { v with shards := v.shards.drop (· == key) }) := by
      rw [Action.onShards, Action.run_change]
      simp only [Store.delete_eq, if_pos (h key List.mem_cons_self), map_ok]
    obtain ⟨count, rest⟩ := ih (v := { v with shards := v.shards.drop (· == key) }) fun id hid ↦
      (Store.admits_drop ..).trans (h id (List.mem_cons_of_mem _ hid))
    refine ⟨if (v.shards.peek key).isSome then count + 1 else count, ?_⟩
    rw [removeShards, Action.run_bind_ok first, Action.run_bind_ok rest, Store.drop_drop]
    rfl

theorem run_deleteListing (fileId : Text) (v : Vault) :
    (Action.onIndex fun s ↦ (s.delete fileId).map (·.2)).run v =
      if v.index.all (·.admits fileId) then
        (.ok (), { v with index := v.index.map (·.drop (· == fileId)) })
      else (.error .unencodable, v) := by
  rw [Action.onIndex, Action.run_change]
  obtain ⟨shards, metadata, index, clock, nonces⟩ := v
  rcases index with _ | index
  · rfl
  · simp only [Store.delete_eq, Option.all_some]
    by_cases hk : index.admits fileId = true
    · simp only [if_pos hk, map_ok, Option.map_some]
    · simp only [if_neg hk, map_error]

/-- A key that can be removed and is the id of a shard of no other file. -/
structure IsOwnKey (fileId key : Text) : Prop where
  scalar : key.isScalar = true
  own : ∀ other, CodePoint.ofChar '_' ∉ other → ∀ i : Int, key = shardId other i → fileId = other

/-- What a deletion of a file leaves of a vault, from which it has removed some shards. -/
structure Vault.Deleted (v : Vault) (fileId : Text) (removed : List Text) (w : Vault) : Prop where
  shards : v.shards.Without removed w.shards
  own : ∀ key ∈ removed, IsOwnKey fileId key
  metadata : v.metadata.Without [fileId] w.metadata
  clock : w.clock = v.clock
  index : ∀ i, w.index = some i → ∃ i', v.index = some i' ∧ i.room = i'.room

theorem Vault.Deleted.peek_other {v w : Vault} {fileId other : Text} {removed : List Text}
    (h : v.Deleted fileId removed w) (ho : CodePoint.ofChar '_' ∉ other) (hne : other ≠ fileId)
    (i : Int) : w.shards.peek (shardId other i) = v.shards.peek (shardId other i) := by
  apply h.shards.kept
  intro hm
  exact hne ((h.own _ hm).own other ho i rfl).symm

/-- The ids of the shards that a deletion removes are those that are named, or are found by the form
of their keys. -/
theorem run_chosen (fileId : Text) (named : List Text) (rest : List Text → Action Bool) (v : Vault) :
    (if named.isEmpty then
      (Action.ask fun v ↦ .ok (v.shards.keys.filter (shardPrefix fileId).isPrefixOf)) >>= rest
      else pure named >>= rest : Action Bool).run v =
      (rest (if named.isEmpty then v.shards.keys.filter (shardPrefix fileId).isPrefixOf
        else named)).run v := by
  split
  · rw [Action.run_bind, Action.run_ask]
  · rw [Action.run_bind, Action.run_pure]

/-- A deletion drops the shards that it is to remove, the record and, if the id can be looked up in
the file index, the listing record. -/
theorem run_deleteFile_eq {v : Vault} {fileId : Text} {named removed : List Text}
    (admitted : v.metadata.admits fileId = true)
    (hnamed : (namedShards fileId (v.metadata.peek fileId)).run v = (.ok named, v))
    (hremoved : removed = if named.isEmpty then
      v.shards.keys.filter (shardPrefix fileId).isPrefixOf else named)
    (own : ∀ key ∈ removed, v.shards.admits key = true) :
    (deleteFile fileId).run v =
      let left := { v with
        shards := v.shards.drop removed.contains
        metadata := v.metadata.drop (· == fileId) }
      if v.index.all (·.admits fileId) then
        (.ok (v.metadata.peek fileId).isSome,
          { left with index := v.index.map (·.drop (· == fileId)) })
      else (.error .unencodable, left) := by
  obtain ⟨count, remove⟩ := run_removeShards own
  have get : (Action.ask (·.metadata.get fileId)).run v = (.ok (v.metadata.peek fileId), v) := by
    rw [Action.run_ask, Store.get_eq, if_pos admitted]
  have record (shards : Store) : (Action.onMetadata fun s ↦ s.delete fileId).run { v with shards } =
      (.ok (v.metadata.peek fileId).isSome,
        { v with shards, metadata := v.metadata.drop (· == fileId) }) := by
    rw [Action.onMetadata, Action.run_change]
    simp only [Store.delete_eq, if_pos admitted, map_ok]
  rw [deleteFile, Action.run_bind_ok get, Action.run_bind_ok hnamed]
  simp only []
  rw [run_chosen, ← hremoved, Action.run_bind_ok remove, Action.run_bind_ok (record _),
    Action.run_bind, run_deleteListing]
  by_cases looked : v.index.all (·.admits fileId) = true
  · simp only [if_pos looked]
    rfl
  · simp only [if_neg looked]

theorem run_deleteFile_of_named {v : Vault} {fileId : Text} {found : Option Bytes}
    {named : List Text} (hget : v.metadata.get fileId = .ok found)
    (hnamed : (namedShards fileId found).run v = (.ok named, v)) (removed : List Text)
    (hremoved : removed = if named.isEmpty then
      v.shards.keys.filter (shardPrefix fileId).isPrefixOf else named)
    (own : ∀ key ∈ removed, IsOwnKey fileId key) :
    ∃ answer w, (deleteFile fileId).run v = (answer, w) ∧ v.Deleted fileId removed w ∧
      (fileId.isScalar = true → answer = .ok found.isSome) := by
  obtain ⟨admitted, rfl⟩ := Store.admits_of_get hget
  rw [run_deleteFile_eq admitted hnamed hremoved fun key hk ↦
    Store.admits_of_isScalar _ (own key hk).scalar]
  have shards := v.shards.without_drop removed
  have metadata := v.metadata.without_drop_one fileId
  simp only []
  split
  · refine ⟨_, _, rfl, ⟨shards, own, metadata, rfl, ?_⟩, fun _ ↦ rfl⟩
    intro index hi
    obtain ⟨before, hb, rfl⟩ := Option.map_eq_some_iff.1 hi
    exact ⟨before, hb, rfl⟩
  · next unknown =>
    refine ⟨_, _, rfl, ⟨shards, own, metadata, rfl, fun index hi ↦ ⟨index, hi, rfl⟩⟩, ?_⟩
    intro scalar
    exact absurd ((Option.all_eq_true _ _).2 fun index _ ↦ index.admits_of_isScalar scalar) unknown

/-- A file is deleted with shards of its own, if its record is there and lists them, or if the keys
that begin like theirs can be removed. No such key is left but those that a record does not list. -/
theorem run_deleteFile {v : Vault} {fileId : Text} {found : Option Bytes}
    (hget : v.metadata.get fileId = .ok found)
    (hkeys : ∀ key ∈ v.shards.keys, (shardPrefix fileId).isPrefixOf key = true →
      key.isScalar = true)
    (hrecord : ∀ bs, found = some bs → fileId.isScalar = true ∧
      ∃ m count, Metadata.decode (.bytes bs) = .ok m ∧
        m.shardIds = (List.range count).map fun i : Nat ↦ shardId fileId i) :
    ∃ removed answer w, (deleteFile fileId).run v = (answer, w) ∧ v.Deleted fileId removed w ∧
      (fileId.isScalar = true → answer = .ok found.isSome) ∧
      ∀ key ∈ v.shards.keys, (shardPrefix fileId).isPrefixOf key = true →
        (∀ bs m, found = some bs → Metadata.decode (.bytes bs) = .ok m → key ∈ m.shardIds) →
        key ∈ removed := by
  have prefixed : ∀ key ∈ v.shards.keys.filter (shardPrefix fileId).isPrefixOf,
      IsOwnKey fileId key := by
    intro key hk
    obtain ⟨hk, hpre⟩ := List.mem_filter.1 hk
    exact ⟨hkeys key hk hpre, fun other ho i he ↦ eq_of_shardPrefix ho (he ▸ hpre)⟩
  obtain ⟨named, hnamed, listed, all⟩ : ∃ named,
      (namedShards fileId found).run v = (.ok named, v) ∧ (∀ key ∈ named, IsOwnKey fileId key) ∧
      ∀ key, (∀ bs m, found = some bs → Metadata.decode (.bytes bs) = .ok m → key ∈ m.shardIds) →
        named = [] ∨ key ∈ named := by
    cases found with
    | none => exact ⟨[], rfl, nofun, fun _ _ ↦ .inl rfl⟩
    | some bs =>
      obtain ⟨scalar, m, count, hd, ids⟩ := hrecord bs rfl
      refine ⟨m.shardIds, by simp only [namedShards, hd]; rfl, ?_,
        fun key listed ↦ .inr (listed bs m rfl hd)⟩
      intro key hk
      rw [ids] at hk
      obtain ⟨j, -, rfl⟩ := List.mem_map.1 hk
      exact ⟨isScalar_shardId scalar j, fun other ho i he ↦ (shardId_inj.1 he).1⟩
  obtain ⟨answer, w, hrun, deleted, hanswer⟩ := run_deleteFile_of_named hget hnamed _ rfl <| by
    intro key hk
    split at hk
    · exact prefixed key hk
    · exact listed key hk
  refine ⟨_, answer, w, hrun, deleted, hanswer, ?_⟩
  intro key hk hpre hlisted
  rcases all key hlisted with rfl | hmem
  · exact List.mem_filter.2 ⟨hk, hpre⟩
  · rw [if_neg (by simpa using List.ne_nil_of_mem hmem)]
    exact hmem

end ShardVault
