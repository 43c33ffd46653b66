import ShardVault.Proofs.Vault.Storing

namespace ShardVault

theorem Vault.metadataOf_of_peek {v : Vault} {fileId : Text} {bs : Bytes} {m m' : Metadata}
    (hp : v.metadata.peek fileId = some bs) (hd : Metadata.decode (.bytes bs) = .ok m)
    (h : v.metadataOf fileId = .ok m') : m' = m := by
  obtain ⟨found, hget, h⟩ := bind_eq_ok.1 h
  rw [Store.peek_of_get hget] at hp
  subst hp
  exact Except.ok.inj (h.symm.trans hd)

theorem Settings.record_of_upload {s : Settings} {v w : Vault} {data : Bytes} {name : Text}
    {folder : Option Text} {m : Metadata} (h : (s.upload data name folder).run v = (.ok m, w)) :
    ∃ bs, w.metadata.peek m.fileId = some bs ∧ Metadata.decode (.bytes bs) = .ok m.readBack ∧
      m.plainHash = Sha256.hex data := by
  have outcome := s.upload_outcome v data name folder
  rw [h] at outcome
  cases outcome with
  | stored prepared shards record metadata answered =>
    obtain rfl := answered m rfl
    obtain ⟨writable, -, rfl⟩ := Metadata.encode_eq_record.1 record
    exact ⟨_, (Store.peek_put metadata _).trans (if_pos rfl), decode_record writable, rfl⟩

/-- Whatever stands in the stores when a file is downloaded, if its record is the one that its
upload has written: what is given out is the file, or makes a collision with it. -/
theorem Settings.download_of_upload (s s' : Settings) (v w : Vault) (data : Bytes) (name : Text)
    (folder : Option Text) (m : Metadata) (found : Bytes)
    (uploaded : (s.upload data name folder v).answer = .ok m)
    (unchanged : w.metadata.peek m.fileId =
      (s.upload data name folder v).vault.metadata.peek m.fileId)
    (downloaded : (s'.download m.fileId w).answer = .ok found) :
    found = data ∨ Sha256.Collision found data := by
  obtain ⟨bs, hp, hd, hash⟩ := record_of_upload (Prod.ext uploaded rfl)
  obtain ⟨m', hm, hfound⟩ := hash_of_download (s := s') (v := w) (Prod.ext downloaded rfl)
  obtain rfl := Vault.metadataOf_of_peek (unchanged.trans hp) hd hm
  exact Sha256.eq_or_collision (hfound.trans hash)

/-- The shards of a file are replaced by those of another sealing of it, under other nonces. -/
theorem Settings.download_of_upload_least : ∃ (m : Metadata) (w w' : Vault) (found : Bytes),
    (least.upload [7] "a" none).run (.fresh .epoch) = (.ok m, w) ∧
      (least.upload [7] "a" none).run { Vault.fresh .epoch with nonces := .counting 9 true } =
        (.ok m, w') ∧
      (least.download m.fileId { w with shards := w'.shards }).answer = .ok found ∧
      (found = [7] ∨ Sha256.Collision found [7]) := by
  obtain ⟨id, hid⟩ := exists_fileId [7] (show Text.isScalar "a" = true by decide) .epoch
  have accepts : least.Accepts [7] "a" none id .epoch :=
    accepts_of_length_le (by decide) (by decide) rfl (by decide) nofun hid (by decide)
  have scalar := isScalar_of_fileId hid
  obtain ⟨w, hup, uploaded⟩ := accepts.run_upload (f := ⟨[7], "a", none, .epoch, .epoch⟩)
    (v := .fresh .epoch) ⟨rfl, rfl, nofun⟩ rfl (by decide) hid rfl rfl
  obtain ⟨w', hup', uploaded'⟩ := accepts.run_upload (f := ⟨[7], "a", none, .epoch, .epoch⟩)
    (v := { Vault.fresh .epoch with nonces := .counting 9 true }) ⟨rfl, rfl, nofun⟩ rfl (by decide)
    hid rfl rfl
  obtain ⟨form, hasKey, isSealed, decodes, isCut, stored⟩ := uploaded'.held
  have replaced : { w with shards := w'.shards }.metadataOf id = .ok _ :=
    metadataOf_of_record scalar DateTime.isWhole_epoch uploaded.peek_metadata uploaded.writable
  have downloaded := congrArg Prod.fst
    (run_download scalar replaced ⟨hasKey, isSealed, decodes, isCut, stored⟩)
  have hup : (least.upload [7] "a" none).run (.fresh .epoch) = (.ok _, w) := hup
  obtain ⟨answer, vault⟩ := Prod.mk.inj hup
  exact ⟨_, w, w', [7], hup, hup', downloaded, download_of_upload least least (.fresh .epoch)
    { w with shards := w'.shards } [7] "a" none _ [7] answer
    (congrArg (·.metadata.peek id) vault.symm) downloaded⟩

end ShardVault
