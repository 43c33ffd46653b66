import ShardVault.Proofs.Container.Encryption
import ShardVault.Proofs.Shard.Layout
import ShardVault.Proofs.Store.Laws
import ShardVault.Proofs.Vault.Actions
import ShardVault.Vault.Upload

namespace ShardVault

def Vault.SameStores (v w : Vault) : Prop :=
  w.shards = v.shards ∧ w.metadata = v.metadata ∧ w.index = v.index

theorem TextRule.eq_of_checkText {rule : TextRule} {t t' : Text}
    (h : rule.checkText t = .ok t') : t = t' := by
  unfold checkText at h
  split at h
  · cases h
  split at h
  · cases h
  split at h
  · cases h
  split at h
  · cases h
  · exact Except.ok.inj h

/-- Write shards one after another, up to the first that cannot be written. -/
def Store.writeShards (s : Store) : List Shard → Except Failure Unit × Store
  | [] => (.ok (), s)
  | shard :: shards =>
    match shard.encode >>= s.put shard.id with
    | .ok s' => s'.writeShards shards
    | .error failure => (.error failure, s)

theorem Store.writeShards_induct {P : Store → Prop} {shards : List Shard} {s : Store} (h : P s)
    (step : ∀ shard ∈ shards, ∀ (s s' : Store) (bs : Bytes), P s → shard.encode = .ok bs →
      s.put shard.id bs = .ok s' → P s') : P (s.writeShards shards).2 := by
  induction shards generalizing s with
  | nil => exact h
  | cons shard shards ih =>
    rw [writeShards]
    split
    · next s' hput =>
      obtain ⟨bs, hbs, hput⟩ := bind_eq_ok.1 hput
      exact ih (step shard (by simp) s s' bs h hbs hput) fun x hx ↦ step x (by simp [hx])
    · exact h

namespace Upload

variable {u : Upload}

theorem run_step {α : Type} (hu : u.status.canMoveTo .error = true) (action : Action α)
    (v : Vault) : (u.step action).run v = action.run v := by
  have advance : u.status.advance .error = .ok .error := if_pos hu
  simp only [Action.run, step, advance]
  cases h : (action v).answer with
  | ok a => exact Prod.ext h rfl
  | error failure => rfl

theorem run_moveTo {target : FileStatus} (h : u.status.canMoveTo target = true) (v : Vault) :
    (u.moveTo target).run v = (.ok { u with status := target }, v) := by
  have hu : u.status.canMoveTo .error = true := by
    cases hs : u.status
    case error => rw [hs] at h; cases h
    all_goals rfl
  have advance : (u.step (Action.ofResult (u.status.advance target))).run v = (.ok target, v) := by
    rw [run_step hu, Action.run_ofResult, FileStatus.advance, if_pos h]
  rw [moveTo, Action.run_bind_ok advance, Action.run_pure]

theorem run_start (id : Text) (v : Vault) :
    ((start id).moveTo .encrypting).run v = (.ok ⟨id, .encrypting, 0⟩, v) :=
  run_moveTo rfl v

theorem run_record (hu : u.status.canMoveTo .error = true) (id : Text) (m : Metadata) (v : Vault) :
    (u.step do
      let written ← Action.ofResult m.encode
      Action.putMetadata id (← Action.ofResult written.encode)).run v =
      match (m.encode >>= Text.encode) >>= v.metadata.put id with
      | .error failure => (.error failure, v)
      | .ok metadata => (.ok (), { v with metadata }) := by
  rw [run_step hu, Action.run_bind, Action.run_ofResult]
  rcases m.encode with failure | t
  · rfl
  simp only [ok_bind]
  rw [Action.run_bind, Action.run_ofResult]
  rcases t.encode with failure | bs
  · rfl
  simp only [ok_bind]
  rw [Action.run_putMetadata]
  rcases v.metadata.put id bs <;> rfl

theorem run_putShards (hu : u.status.canMoveTo .error = true) (shards : List Shard) (v : Vault) :
    (u.putShards shards).run v =
      ((v.shards.writeShards shards).1.map fun _ ↦ { u with written := u.written + shards.length },
        { v with shards := (v.shards.writeShards shards).2 }) := by
  induction shards generalizing u v with
  | nil => rfl
  | cons shard shards ih =>
    have hrun : (u.step (Action.ofResult shard.encode >>= Action.putShard shard.id)).run v =
        match shard.encode >>= v.shards.put shard.id with
        | .ok shards => (.ok (), { v with shards })
        | .error failure => (.error failure, v) := by
      rw [run_step hu, Action.run_bind, Action.run_ofResult]
      cases shard.encode with
      | error failure => rfl
      | ok bs => exact Action.run_putShard shard.id bs v
    rw [putShards, Store.writeShards]
    rcases hput : shard.encode >>= v.shards.put shard.id with failure | s'
    · rw [hput] at hrun
      rw [Action.run_bind_error hrun]
      rfl
    · rw [hput] at hrun
      rw [Action.run_bind_ok hrun, ih (u := { u with written := u.written + 1 }) hu]
      simp only [List.length_cons, Nat.add_assoc, Nat.add_comm 1]

end Upload

structure Prepared where
  createdAt : DateTime
  sealedAt : DateTime
  id : Text
  key : CipherKey
  payload : Bytes
  shards : List Shard

def Prepared.container (p : Prepared) (s : Settings) (data : Bytes) (nonces : NonceSupply) :
    Container :=
  s.encryptor.assemble data p.id (s.encryptor.seal p.key data nonces).1 p.sealedAt

structure Settings.Prepares (s : Settings) (v : Vault) (data : Bytes) (name : Text)
    (p : Prepared) : Prop where
  valid : TextRule.fileName.checkText name = .ok name
  createdAt : v.clock.reading v.clock.reads = .ok p.createdAt
  id : fileId data name p.createdAt = .ok p.id
  key : s.encryptor.keyFor data p.id = .ok p.key
  sealedAt : v.clock.reading (v.clock.reads + 1) = .ok p.sealedAt
  payload : (p.container s data v.nonces).encode = .ok p.payload
  shards : s.layout.cut p.id p.payload = .ok p.shards

def Settings.pack (s : Settings) (v : Vault) (data : Bytes) (id : Text) (createdAt : DateTime) :
    Except Failure Prepared := do
  let key ← s.encryptor.keyFor data id
  let sealedAt ← v.clock.reading v.clock.reads
  let payload ←
    (s.encryptor.assemble data id (s.encryptor.seal key data v.nonces).1 sealedAt).encode
  let shards ← s.layout.cut id payload
  return ⟨createdAt, sealedAt, id, key, payload, shards⟩

def Settings.prepare (s : Settings) (v : Vault) (data : Bytes) (name : Text) :
    Except Failure Prepared := do
  let name ← (TextRule.fileName.checkText name).mapError .validation
  let createdAt ← v.clock.reading v.clock.reads
  let id ← fileId data name createdAt
  s.pack { v with clock := { v.clock with reads := v.clock.reads + 1 } } data id createdAt

def Settings.metadataOf (s : Settings) (data : Bytes) (name : Text) (folder : Option Text)
    (id : Text) (createdAt : DateTime) (size : Nat) : Metadata where
  fileId := id
  fileName := name
  plainSize := data.length
  encryptedSize := size
  merkleRoot := Merkle.root ((chunks s.encryptor.chunkSize data).map Sha256.hex)
  plainHash := Sha256.hex data
  shardIds := (List.range s.layout.total).map fun i : Nat ↦ shardId id i
  totalShards := s.layout.total
  dataShards := s.layout.data
  parityShards := s.layout.parity
  createdAt := createdAt
  status := .encrypted
  folderId := folder

def Prepared.metadata (p : Prepared) (s : Settings) (data : Bytes) (name : Text)
    (folder : Option Text) : Metadata :=
  s.metadataOf data name folder p.id p.createdAt p.payload.length

def Vault.prepared (v : Vault) (s : Settings) (data : Bytes) (p : Prepared) : Vault :=
  { v with
    clock := { v.clock with reads := v.clock.reads + 2 }
    nonces := (s.encryptor.seal p.key data v.nonces).2 }

def Settings.write (s : Settings) (data : Bytes) (name : Text) (folder : Option Text)
    (p : Prepared) (v : Vault) : Except Failure Metadata × Vault :=
  let m := p.metadata s data name folder
  match v.shards.writeShards p.shards with
  | (.error failure, shards) => (.error failure, { v with shards })
  | (.ok (), shards) =>
    match (m.encode >>= Text.encode) >>= v.metadata.put p.id with
    | .error failure => (.error failure, { v with shards })
    | .ok metadata => (.ok m, { v with shards, metadata })

namespace Settings

variable {s : Settings} {v : Vault} {data : Bytes} {name : Text} {folder : Option Text}
  {p : Prepared}

theorem Prepares.isCut (h : s.Prepares v data name p) : s.layout.IsCut p.id p.payload p.shards :=
  Layout.isCut_of_cut h.shards

theorem Prepares.describe (h : s.Prepares v data name p) (folder : Option Text) :
    s.describe data name folder p.createdAt .encrypted (p.container s data v.nonces) p.shards =
      p.metadata s data name folder := by
  have sealed := s.encryptor.seal_sealed p.key data v.nonces
  simp only [Settings.describe, Prepared.metadata, metadataOf, Prepared.container,
    Container.Encryptor.assemble, sealed.hashes, h.isCut.ids, h.isCut.length, h.isCut.dataSize]

theorem run_now {v : Vault} {time : DateTime} (h : v.clock.reading v.clock.reads = .ok time) :
    Action.now.run v =
      (.ok time, { v with clock := { v.clock with reads := v.clock.reads + 1 } }) := by
  rw [Action.now, Action.run_change]
  simp only [Clock.read, h, map_ok]

theorem run_encrypt {data : Bytes} {id : Text} {key : CipherKey} {time : DateTime}
    (hk : s.encryptor.keyFor data id = .ok key)
    (ht : v.clock.reading v.clock.reads = .ok time) :
    (s.encrypt data id).run v =
      (.ok (s.encryptor.assemble data id (s.encryptor.seal key data v.nonces).1 time),
        { v with
          clock := { v.clock with reads := v.clock.reads + 1 }
          nonces := (s.encryptor.seal key data v.nonces).2 }) := by
  rw [Settings.encrypt, Action.run_bind, Action.run_ofResult, hk]
  simp only []
  rw [Action.run_bind, Action.run_change]
  simp only []
  rw [Action.run_bind, run_now (v := { v with nonces := (s.encryptor.seal key data v.nonces).2 }) ht]
  rfl

theorem run_cut {c : Container} {payload : Bytes} {shards : List Shard}
    (hp : c.encode = .ok payload) (hs : s.layout.cut c.fileId payload = .ok shards) :
    (s.cut c).run v = (.ok shards, v) := by
  rw [Settings.cut, Action.run_bind, Action.run_ofResult, Layout.create]
  simp only [hp, hs, ok_bind]
  rfl

theorem run_store {w : Vault} {createdAt : DateTime} {c : Container}
    (hc : (s.encrypt data p.id).run v = (.ok c, w)) (hid : c.fileId = p.id)
    (hp : c.encode = .ok p.payload) (hs : s.layout.cut p.id p.payload = .ok p.shards)
    (hm : s.describe data name folder createdAt .encrypted c p.shards =
      p.metadata s data name folder) :
    (s.store p.id data name folder createdAt).run v = s.write data name folder p w := by
  have encrypt : ((⟨p.id, .encrypting, 0⟩ : Upload).step (s.encrypt data p.id)).run v =
      (.ok c, w) := (Upload.run_step rfl _ v).trans hc
  have cut : ((⟨p.id, .encrypting, 0⟩ : Upload).step (s.cut c)).run w = (.ok p.shards, w) :=
    (Upload.run_step rfl _ w).trans (run_cut hp (hid ▸ hs))
  have shards := Upload.run_putShards (u := ⟨p.id, .encrypting, 0⟩) rfl p.shards w
  rw [Settings.store, Action.run_bind_ok (Upload.run_start p.id v), Action.run_bind_ok encrypt,
    Action.run_bind_ok cut, Settings.write]
  rcases hw : w.shards.writeShards p.shards with ⟨failure | _, written⟩
  · rw [hw] at shards
    rw [Action.run_bind_error shards]
  · rw [hw] at shards
    rw [Action.run_bind_ok shards, Action.run_bind_ok (Upload.run_moveTo rfl _), hm]
    have record := Upload.run_record (u := ⟨p.id, .encrypted, 0 + p.shards.length⟩) rfl p.id
      (p.metadata s data name folder) { w with shards := written }
    simp only [] at record ⊢
    rcases hput : ((p.metadata s data name folder).encode >>= Text.encode) >>=
      w.metadata.put p.id with failure | metadata
    · rw [hput] at record
      rw [Action.run_bind_error record]
    · rw [hput] at record
      rw [Action.run_bind_ok record]
      rfl

theorem run_upload_of_id {id : Text} {createdAt : DateTime}
    (hname : TextRule.fileName.checkText name = .ok name)
    (htime : v.clock.reading v.clock.reads = .ok createdAt)
    (hid : fileId data name createdAt = .ok id) (folder : Option Text) :
    (s.upload data name folder).run v =
      match (s.store id data name folder createdAt).run
        { v with clock := { v.clock with reads := v.clock.reads + 1 } } with
      | (.ok m, w) => (do
          Action.onIndex fun index ↦ Index.save index m.listing
          pure m).run w
      | (.error failure, w) => (.error failure, w) := by
  rw [Settings.upload, Action.run_bind, Action.run_ofResult, hname]
  simp only [mapError_ok]
  rw [Action.run_bind_ok (run_now htime), Action.run_bind, Action.run_ofResult, hid]
  simp only []
  rw [Action.run_bind]
  rcases (s.store id data name folder createdAt).run
    { v with clock := { v.clock with reads := v.clock.reads + 1 } } with ⟨failure | m, w⟩
  · rfl
  · simp only []
    rw [Action.run_bind, Action.run_bind]
    rcases (Action.onIndex fun index ↦ Index.save index m.listing).run w with ⟨failure | _, w'⟩
    · rfl
    · rfl

theorem Prepares.run_upload (h : s.Prepares v data name p) (folder : Option Text) :
    (s.upload data name folder).run v =
      match s.write data name folder p (v.prepared s data p) with
      | (.ok m, w) => (do
          Action.onIndex fun index ↦ Index.save index m.listing
          pure m).run w
      | (.error failure, w) => (.error failure, w) := by
  have encrypt : (s.encrypt data p.id).run
      { v with clock := { v.clock with reads := v.clock.reads + 1 } } =
        (.ok (p.container s data v.nonces), v.prepared s data p) := run_encrypt h.key h.sealedAt
  rw [run_upload_of_id h.valid h.createdAt h.id,
    run_store encrypt rfl h.payload h.shards (h.describe folder)]

theorem run_now_error {failure : Failure}
    (h : v.clock.reading v.clock.reads = .error failure) :
    Action.now.run v = (.error failure, v) := by
  rw [Action.now, Action.run_change]
  simp only [Clock.read, h, map_error]

theorem run_store_of_encrypt_error {id : Text} {createdAt : DateTime} {failure : Failure}
    {w : Vault} (h : (s.encrypt data id).run v = (.error failure, w)) :
    (s.store id data name folder createdAt).run v = (.error failure, w) := by
  rw [Settings.store, Action.run_bind_ok (Upload.run_start id v),
    Action.run_bind_error ((Upload.run_step rfl _ v).trans h)]

theorem run_store_of_cut_error {id : Text} {createdAt : DateTime} {failure : Failure}
    {c : Container} {w : Vault} (hc : (s.encrypt data id).run v = (.ok c, w))
    (h : (s.cut c).run w = (.error failure, w)) :
    (s.store id data name folder createdAt).run v = (.error failure, w) := by
  rw [Settings.store, Action.run_bind_ok (Upload.run_start id v),
    Action.run_bind_ok ((Upload.run_step rfl _ v).trans hc),
    Action.run_bind_error ((Upload.run_step rfl _ w).trans h)]

theorem run_encrypt_error {id : Text} {failure : Failure}
    (h : s.encryptor.keyFor data id = .error failure) :
    (s.encrypt data id).run v = (.error failure, v) := by
  rw [Settings.encrypt, Action.run_bind, Action.run_ofResult, h]

theorem run_encrypt_clock_error {id : Text} {key : CipherKey} {failure : Failure}
    (hk : s.encryptor.keyFor data id = .ok key)
    (ht : v.clock.reading v.clock.reads = .error failure) :
    (s.encrypt data id).run v =
      (.error failure, { v with nonces := (s.encryptor.seal key data v.nonces).2 }) := by
  rw [Settings.encrypt, Action.run_bind, Action.run_ofResult, hk]
  simp only []
  rw [Action.run_bind, Action.run_change]
  simp only []
  rw [Action.run_bind_error
    (run_now_error (v := { v with nonces := (s.encryptor.seal key data v.nonces).2 }) ht)]

theorem run_cut_error {c : Container} {failure : Failure} (h : s.layout.create c = .error failure) :
    (s.cut c).run v = (.error failure, v) := by
  rw [Settings.cut, Action.run_bind, Action.run_ofResult, h]

theorem sameStores_of_time (v : Vault) (clock : Clock) (nonces : NonceSupply) :
    v.SameStores { v with clock := clock, nonces := nonces } := ⟨rfl, rfl, rfl⟩

theorem prepares_of_prepare (h : s.prepare v data name = .ok p) : s.Prepares v data name p := by
  obtain ⟨name', hname, h⟩ := bind_eq_ok.1 h
  obtain ⟨createdAt, hcreated, h⟩ := bind_eq_ok.1 h
  obtain ⟨id, hid, h⟩ := bind_eq_ok.1 h
  obtain ⟨key, hkey, h⟩ := bind_eq_ok.1 h
  obtain ⟨sealedAt, hsealed, h⟩ := bind_eq_ok.1 h
  obtain ⟨payload, hpayload, h⟩ := bind_eq_ok.1 h
  obtain ⟨shards, hshards, h⟩ := bind_eq_ok.1 h
  obtain rfl := Except.ok.inj h
  rcases hvalid : TextRule.fileName.checkText name with fault | valid
  · rw [hvalid] at hname
    cases hname
  · rw [hvalid] at hname
    obtain rfl : valid = name' := Except.ok.inj hname
    obtain rfl := TextRule.eq_of_checkText hvalid
    exact ⟨hvalid, hcreated, hid, hkey, hsealed, hpayload, hshards⟩

/-- A file that cannot be encrypted and cut is not stored, for the same reason, and the stores are
left as they are. -/
theorem run_store_of_pack_error {id : Text} {createdAt : DateTime} {failure : Failure}
    (h : s.pack v data id createdAt = .error failure) (name : Text) (folder : Option Text) :
    ∃ w, (s.store id data name folder createdAt).run v = (.error failure, w) ∧ v.SameStores w := by
  rw [pack] at h
  rcases hkey : s.encryptor.keyFor data id with failure' | key
  · rw [hkey] at h
    obtain rfl : failure' = failure := Except.error.inj h
    exact ⟨v, run_store_of_encrypt_error (run_encrypt_error hkey), sameStores_of_time v _ _⟩
  rw [hkey, ok_bind] at h
  rcases htime : v.clock.reading v.clock.reads with failure' | sealedAt
  · rw [htime] at h
    obtain rfl : failure' = failure := Except.error.inj h
    exact ⟨_, run_store_of_encrypt_error (run_encrypt_clock_error hkey htime),
      sameStores_of_time v _ _⟩
  rw [htime, ok_bind] at h
  rcases hpayload : (s.encryptor.assemble data id (s.encryptor.seal key data v.nonces).1
    sealedAt).encode with failure' | payload
  · rw [hpayload] at h
    obtain rfl : failure' = failure := Except.error.inj h
    have broken : s.layout.create _ = .error failure' := bind_eq_error.2 (.inl hpayload)
    exact ⟨_, run_store_of_cut_error (run_encrypt hkey htime) (run_cut_error broken),
      sameStores_of_time v _ _⟩
  rw [hpayload, ok_bind] at h
  rcases hshards : s.layout.cut id payload with failure' | shards
  · rw [hshards] at h
    obtain rfl : failure' = failure := Except.error.inj h
    have broken : s.layout.create _ = .error failure' :=
      bind_eq_error.2 (.inr ⟨payload, hpayload, bind_eq_error.2 (.inl hshards)⟩)
    exact ⟨_, run_store_of_cut_error (run_encrypt hkey htime) (run_cut_error broken),
      sameStores_of_time v _ _⟩
  · rw [hshards] at h
    cases h

/-- An upload that cannot be prepared fails for that reason and leaves the stores as they are. -/
theorem run_upload_of_prepare_error {failure : Failure}
    (h : s.prepare v data name = .error failure) (folder : Option Text) :
    ∃ w, (s.upload data name folder).run v = (.error failure, w) ∧ v.SameStores w := by
  rw [prepare] at h
  rcases hname : TextRule.fileName.checkText name with fault | name'
  · rw [hname] at h
    obtain rfl : Failure.validation fault = failure := Except.error.inj h
    refine ⟨v, ?_, sameStores_of_time v _ _⟩
    rw [Settings.upload, Action.run_bind, Action.run_ofResult, hname]
    rfl
  obtain rfl := TextRule.eq_of_checkText hname
  rw [hname, mapError_ok, ok_bind] at h
  rcases htime : v.clock.reading v.clock.reads with failure' | createdAt
  · rw [htime] at h
    obtain rfl : failure' = failure := Except.error.inj h
    refine ⟨v, ?_, sameStores_of_time v _ _⟩
    rw [Settings.upload, Action.run_bind, Action.run_ofResult, hname]
    simp only [mapError_ok]
    rw [Action.run_bind_error (run_now_error htime)]
  rw [htime, ok_bind] at h
  rcases hid : fileId data name createdAt with failure' | id
  · rw [hid] at h
    obtain rfl : failure' = failure := Except.error.inj h
    refine ⟨{ v with clock := { v.clock with reads := v.clock.reads + 1 } }, ?_,
      sameStores_of_time v _ _⟩
    rw [Settings.upload, Action.run_bind, Action.run_ofResult, hname]
    simp only [mapError_ok]
    rw [Action.run_bind_ok (run_now htime), Action.run_bind, Action.run_ofResult, hid]
  rw [hid, ok_bind] at h
  obtain ⟨w, hw, same⟩ := run_store_of_pack_error h name folder
  refine ⟨w, ?_, same⟩
  rw [run_upload_of_id hname htime hid, hw]

theorem prepares_or_fails (s : Settings) (v : Vault) (data : Bytes) (name : Text)
    (folder : Option Text) :
    (∃ p, s.Prepares v data name p) ∨
      ∃ failure w, (s.upload data name folder).run v = (.error failure, w) ∧ v.SameStores w := by
  rcases h : s.prepare v data name with failure | p
  · exact .inr ⟨failure, run_upload_of_prepare_error h folder⟩
  · exact .inl ⟨p, prepares_of_prepare h⟩

/-- How an upload may end, and what it leaves in the stores. -/
inductive UploadOutcome (s : Settings) (v : Vault) (data : Bytes) (name : Text)
    (folder : Option Text) : Except Failure Metadata × Vault → Prop
  | refused {failure : Failure} {w : Vault} (same : v.SameStores w) :
      UploadOutcome s v data name folder (.error failure, w)
  /-- It fails while it writes the shards or the metadata. -/
  | broken {p : Prepared} {failure : Failure} {w : Vault} (prepared : s.Prepares v data name p)
      (shards : w.shards = (v.shards.writeShards p.shards).2)
      (metadata : w.metadata = v.metadata) :
      UploadOutcome s v data name folder (.error failure, w)
  /-- It writes all shards and the metadata, and may still fail to list the file. -/
  | stored {p : Prepared} {bs : Bytes} {answer : Except Failure Metadata} {w : Vault}
      (prepared : s.Prepares v data name p)
      (shards : v.shards.writeShards p.shards = (.ok (), w.shards))
      (record : ((p.metadata s data name folder).encode >>= Text.encode) = .ok bs)
      (metadata : v.metadata.put p.id bs = .ok w.metadata)
      (answered : ∀ m, answer = .ok m → m = p.metadata s data name folder) :
      UploadOutcome s v data name folder (answer, w)

/-- Listing a file writes its listing record if there is a file index, and changes nothing else. -/
theorem run_listing_eq (m : Metadata) (v : Vault) :
    (do
        Action.onIndex fun index ↦ Index.save index m.listing
        pure m : Action Metadata).run v =
      match v.index with
      | none => (.ok m, v)
      | some index =>
        match Index.save index m.listing with
        | .ok index => (.ok m, { v with index := some index })
        | .error failure => (.error failure, v) := by
  rw [Action.run_bind, Action.onIndex, Action.run_change]
  rcases v.index with _ | index
  · rfl
  · rcases h : Index.save index m.listing with failure | index'
    · simp only [h, map_error]
    · simp only [h, map_ok, Action.run_pure]

/-- Listing a file changes nothing but the file index, and answers with its metadata if at all. -/
theorem run_listing (m : Metadata) (v : Vault) :
    ∃ answer index, (do
        Action.onIndex fun index ↦ Index.save index m.listing
        pure m : Action Metadata).run v = (answer, { v with index }) ∧
      ∀ m', answer = .ok m' → m' = m := by
  rw [run_listing_eq]
  obtain ⟨shards, metadata, index, clock, nonces⟩ := v
  rcases index with _ | index
  · exact ⟨.ok m, none, rfl, fun m' hm ↦ (Except.ok.inj hm).symm⟩
  rcases h : Index.save index m.listing with failure | index'
  · exact ⟨.error failure, some index, by simp only [h], nofun⟩
  · exact ⟨.ok m, some index', by simp only [h], fun m' hm ↦ (Except.ok.inj hm).symm⟩

theorem upload_outcome (s : Settings) (v : Vault) (data : Bytes) (name : Text)
    (folder : Option Text) :
    UploadOutcome s v data name folder ((s.upload data name folder).run v) := by
  rcases s.prepares_or_fails v data name folder with ⟨p, hp⟩ | ⟨failure, w, hw, same⟩
  · rw [hp.run_upload, Settings.write]
    simp only [Vault.prepared]
    rcases hs : v.shards.writeShards p.shards with ⟨failure | _, shards⟩
    · exact .broken hp (by rw [hs]) rfl
    simp only []
    rcases hm : (p.metadata s data name folder).encode >>= Text.encode with failure | bs
    · exact .broken hp (by rw [hs]) rfl
    simp only [ok_bind]
    rcases hput : v.metadata.put p.id bs with failure | metadata
    · exact .broken hp (by rw [hs]) rfl
    simp only []
    obtain ⟨answer, index, hrun, answered⟩ := run_listing (p.metadata s data name folder)
      { v with
        shards := shards
        metadata := metadata
        clock := { v.clock with reads := v.clock.reads + 2 }
        nonces := (s.encryptor.seal p.key data v.nonces).2 }
    rw [hrun]
    exact .stored hp hs hm hput answered
  · rw [hw]
    exact .refused same

end Settings

end ShardVault
