import ShardVault.Proofs.Catalogue.Refusals
import ShardVault.Proofs.Container.Refusals
import ShardVault.Proofs.Vault.Audit
import ShardVault.Proofs.Vault.Delete

namespace ShardVault

namespace Vault

variable {v : Vault} {fileId : Text} {failure : Failure}

/-- The text of the record under an id, if it can be looked up and is text. -/
def recordText? (v : Vault) (fileId : Text) : Option Text :=
  if v.metadata.admits fileId then
    (v.metadata.peek fileId).bind fun bs ↦ (Document.bytes bs).toText?
  else none

def excess? (v : Vault) (fileId : Text) : Option Failure :=
  (v.recordText? fileId).bind Json.excess?

/-- The ids of the shards that the record under an id names, if it can be read. -/
def named (v : Vault) (fileId : Text) : List Text :=
  match v.metadataOf fileId with
  | .ok m => m.shardIds
  | .error _ => []

/-- The ids of the shards that a deletion removes: those that the record names, or else those that
begin as the ids of its shards do. -/
def doomed (v : Vault) (fileId : Text) : List Text :=
  if (v.named fileId).isEmpty then v.shards.keys.filter (shardPrefix fileId).isPrefixOf
  else v.named fileId

def reaches (v : Vault) (fileId : Text) : Bool :=
  v.metadata.admits fileId && (v.doomed fileId).all v.shards.admits &&
    v.index.all (·.admits fileId)

theorem metadataOf_eq (admitted : v.metadata.admits fileId = true) : v.metadataOf fileId =
    match v.metadata.peek fileId with
    | none => .error (.metadataNotFound fileId)
    | some bs => Metadata.decode (.bytes bs) := by
  rw [metadataOf, Store.get_eq, if_pos admitted]
  rcases v.metadata.peek fileId with _ | bs
  · exact ok_bind none _
  · exact ok_bind (some bs) _

theorem excess?_eq (admitted : v.metadata.admits fileId = true) : v.excess? fileId =
    (v.metadata.peek fileId).bind fun bs ↦ (Document.bytes bs).toText?.bind Json.excess? := by
  rw [excess?, recordText?, if_pos admitted, Option.bind_assoc]

theorem metadataOf_error_iff : v.metadataOf fileId = .error failure ∧ failure.family? = none ↔
    v.excess? fileId = some failure ∨
      v.metadata.admits fileId = false ∧ failure = .unencodable := by
  by_cases admitted : v.metadata.admits fileId = true
  · rw [metadataOf_eq admitted, excess?_eq admitted, admitted]
    simp only [Bool.true_eq_false, false_and, or_false]
    rcases v.metadata.peek fileId with _ | bs
    · refine iff_of_false ?_ nofun
      rintro ⟨missing, foreign⟩
      obtain rfl := Except.error.inj missing
      cases foreign
    · exact (Metadata.decode_refuses _).foreign_iff Document.family?_of_corrupt
  · rw [metadataOf, Store.get_eq, if_neg admitted, excess?, recordText?, if_neg admitted]
    constructor
    · rintro ⟨barred, -⟩
      exact .inr ⟨by simpa using admitted, (Except.error.inj barred).symm⟩
    · rintro (beyond | ⟨-, rfl⟩)
      · cases beyond
      · exact ⟨rfl, rfl⟩

theorem run_namedShards (admitted : v.metadata.admits fileId = true) :
    (namedShards fileId (v.metadata.peek fileId)).run v =
      (match v.excess? fileId with
        | some failure => .error failure
        | none => .ok (v.named fileId), v) := by
  rw [excess?_eq admitted, named, metadataOf_eq admitted]
  rcases v.metadata.peek fileId with _ | bs
  · rfl
  simp only [namedShards, Option.bind_some]
  have refuses := Metadata.decode_refuses (.bytes bs)
  rcases beyond : (Document.bytes bs).toText?.bind Json.excess? with _ | failure
  · rcases hd : Metadata.decode (.bytes bs) with failure | m
    · -- Within the limits the record is corrupt, and names nothing.
      rcases refuses.fails.of_eq failure hd with ⟨fault, rfl⟩ | h
      · rfl
      · cases beyond.symm.trans h
    · rfl
  · obtain ⟨t, -, ht⟩ := Option.bind_eq_some_iff.1 beyond
    rw [refuses.excess failure beyond]
    rcases Json.excess?_eq_some ht with ⟨rfl, -⟩ | ⟨run, -, -, -, rfl⟩
    · rfl
    · rfl

end Vault

theorem run_removeShards_of_barred {ids : List Text} {v : Vault}
    (h : ids.all v.shards.admits = false) :
    ∃ w, (removeShards ids).run v = (.error .unencodable, w) := by
  induction ids generalizing v with
  | nil => cases h
  | cons key ids ih =>
    rw [removeShards, Action.run_bind, Action.onShards, Action.run_change]
    by_cases admitted : v.shards.admits key = true
    · simp only [Store.delete_eq, if_pos admitted, map_ok]
      rw [List.all_cons, admitted, Bool.true_and] at h
      obtain ⟨w, rest⟩ := ih (v := { v with shards := v.shards.drop (· == key) }) (by simpa using h)
      exact ⟨w, Action.run_bind_error rest _⟩
    · simp only [Store.delete_eq, if_neg admitted, map_error]
      exact ⟨v, rfl⟩

namespace Vault

variable {v : Vault} {fileId : Text} {failure : Failure}

/-- A deletion answers, unless the record is beyond the limits of documents or something cannot be
looked up. -/
theorem answer_deleteFile (v : Vault) (fileId : Text) : (deleteFile fileId v).answer =
    match v.excess? fileId with
    | some failure => .error failure
    | none =>
      if v.reaches fileId then .ok (v.metadata.peek fileId).isSome else .error .unencodable := by
  change ((deleteFile fileId).run v).1 = _
  by_cases admitted : v.metadata.admits fileId = true
  swap
  · have get : (Action.ask (·.metadata.get fileId)).run v = (.error .unencodable, v) := by
      rw [Action.run_ask, Store.get_eq, if_neg admitted]
    have barred : v.reaches fileId = false := by simp [reaches, admitted]
    rw [deleteFile, Action.run_bind_error get, excess?, recordText?, if_neg admitted, barred]
    rfl
  have get : (Action.ask (·.metadata.get fileId)).run v = (.ok (v.metadata.peek fileId), v) := by
    rw [Action.run_ask, Store.get_eq, if_pos admitted]
  have hnamed := run_namedShards admitted
  rcases beyond : v.excess? fileId with _ | failure
  swap
  · rw [deleteFile, Action.run_bind_ok get, Action.run_bind_error (beyond ▸ hnamed)]
  rw [beyond] at hnamed
  by_cases known : (v.doomed fileId).all v.shards.admits = true
  · rw [run_deleteFile_eq admitted hnamed rfl (List.all_eq_true.1 known), reaches, admitted, known]
    simp only [Bool.true_and]
    split
    · rfl
    · rfl
  · obtain ⟨w, barred⟩ := run_removeShards_of_barred (Bool.not_eq_true _ ▸ known)
    have unreached : v.reaches fileId = false := by simp [reaches, known]
    rw [deleteFile, Action.run_bind_ok get, Action.run_bind_ok hnamed]
    simp only []
    rw [run_chosen, ← doomed, Action.run_bind_error barred, unreached]
    rfl

theorem deleteFile_error_iff : (deleteFile fileId v).answer = .error failure ↔
    v.excess? fileId = some failure ∨
      v.excess? fileId = none ∧ v.reaches fileId = false ∧ failure = .unencodable := by
  rw [answer_deleteFile]
  rcases v.excess? fileId with _ | beyond
  · simp only [reduceCtorEq, true_and, false_or]
    split
    · next known => exact iff_of_false nofun fun h ↦ Bool.false_ne_true (h.1.symm.trans known)
    · next barred =>
      rw [Bool.not_eq_true] at barred
      rw [Except.error.injEq, barred, eq_comm, eq_self, true_and]
  · simp only [Except.error.injEq, Option.some.injEq, reduceCtorEq, false_and, or_false]

theorem auditFile_error_iff :
    (auditFile fileId v).answer = .error failure ∧ failure.family? = none ↔
      v.excess? fileId = some failure ∨ failure = .unencodable ∧ (v.metadata.admits fileId = false ∨
        ∃ m, v.metadataOf fileId = .ok m ∧ m.shardIds.all v.shards.admits = false) := by
  have lookup := @metadataOf_error_iff v fileId failure
  rcases found : v.metadataOf fileId with other | m
  · have answer : (auditFile fileId v).answer = .error other := by
      change ((auditFile fileId).run v).1 = _
      rw [auditFile, Action.run_bind, Action.run_ask, found]
    rw [found, Except.error.injEq] at lookup
    rw [answer, Except.error.injEq, lookup]
    simp [and_comm]
  · -- The record was found and read, so only its shards may be out of reach.
    rw [found] at lookup
    obtain ⟨inside, admitted⟩ := not_or.1 fun h ↦ by cases (lookup.2 h).1
    rw [answer_auditFile found]
    constructor
    · rintro ⟨h, -⟩
      split at h
      · cases h
      · next barred =>
        exact .inr ⟨(Except.error.inj h).symm, .inr ⟨m, rfl, Bool.not_eq_true _ ▸ barred⟩⟩
    · rintro (beyond | ⟨rfl, barred | ⟨_, ⟨⟩, barred⟩⟩)
      · exact absurd beyond inside
      · exact absurd ⟨barred, rfl⟩ admitted
      · exact ⟨if_neg (Bool.not_eq_true _ ▸ barred), rfl⟩

end Vault

/-- Containers, metadata and listing records fail outside their family just if their text is beyond
the limits of documents; such a text opens too many lists and objects, or holds too many digits one
after another. Deletions and audits fail outside the families just for such a record, and for keys
that cannot be looked up. -/
theorem refused_unless_excess (bs : Bytes) (document : Document) (v : Vault) (fileId t : Text)
    (failure : Failure) :
    (Container.decode bs = .error failure ∧ (¬ ∃ fault, failure = .corruptContainer fault) ↔
        (Container.headerText? bs).bind Json.excess? = some failure) ∧
      (Metadata.decode document = .error failure ∧ (¬ ∃ fault, failure = .corruptMetadata fault) ↔
        document.toText?.bind Json.excess? = some failure) ∧
      (IndexRecord.decode document = .error failure ∧
          (¬ ∃ fault, failure = .corruptMetadata fault) ↔
        document.toText?.bind Json.excess? = some failure) ∧
      ((deleteFile fileId v).answer = .error failure ↔ v.excess? fileId = some failure ∨
        v.excess? fileId = none ∧ v.reaches fileId = false ∧ failure = .unencodable) ∧
      ((auditFile fileId v).answer = .error failure ∧ failure.family? = none ↔
        v.excess? fileId = some failure ∨ failure = .unencodable ∧
          (v.metadata.admits fileId = false ∨
            ∃ m, v.metadataOf fileId = .ok m ∧ m.shardIds.all v.shards.admits = false)) ∧
      (Json.excess? t = some failure →
        (failure = .tooDeep ∧ Json.nestingLimit < t.countP Json.opens) ∨
          ∃ run, run <:+: t ∧ (∀ c ∈ run, c.isAsciiDigit = true) ∧
            Numeral.digitLimit < run.length ∧
            failure = .invalid (.numeral (.tooManyDigits run.length))) := by
  refine ⟨(Container.decode_refuses bs).error_iff Container.family?_of_corrupt,
    (Metadata.decode_refuses document).error_iff Document.family?_of_corrupt,
    (IndexRecord.decode_refuses document).error_iff Document.family?_of_corrupt,
    Vault.deleteFile_error_iff, Vault.auditFile_error_iff, Json.excess?_eq_some⟩

theorem refused_unless_excess_brackets : Json.excess? Json.brackets = some .tooDeep ∧
    Json.nestingLimit < Json.brackets.countP Json.opens := by
  obtain ⟨-, -, -, -, -, shows⟩ := refused_unless_excess [] (.text "") (Vault.fresh .epoch) "f"
    Json.brackets .tooDeep
  refine ⟨Json.excess?_brackets, ?_⟩
  rcases shows Json.excess?_brackets with ⟨-, deep⟩ | ⟨run, -, -, -, other⟩
  · exact deep
  · cases other

/-- A text beyond the limits makes a container and records that are not refused as corrupt, and the
record lets neither a deletion nor an audit of its file come to an end. -/
theorem not_refused_as_corrupt :
    (¬ ∀ bs, (∃ c, Container.decode bs = .ok c) ∨
      ∃ fault, Container.decode bs = .error (.corruptContainer fault)) ∧
    (¬ ∀ document, (∃ m, Metadata.decode document = .ok m) ∨
      ∃ fault, Metadata.decode document = .error (.corruptMetadata fault)) ∧
    (¬ ∀ document, (∃ r, IndexRecord.decode document = .ok r) ∨
      ∃ fault, IndexRecord.decode document = .error (.corruptMetadata fault)) ∧
    (¬ ∀ (v : Vault) (fileId : Text) (failure : Failure), fileId.isScalar = true →
      (deleteFile fileId v).answer = .error failure → failure.family? ≠ none) ∧
    ¬ ∀ (v : Vault) (fileId : Text) (failure : Failure), fileId.isScalar = true →
      (auditFile fileId v).answer = .error failure → failure.family? ≠ none := by
  let v : Vault := { Vault.fresh .epoch with
    metadata := .memory [("f", Utf8.encodeAll Json.brackets)] none }
  have beyond : v.excess? "f" = some .tooDeep := by
    have admitted : v.metadata.admits "f" = true := rfl
    have record : v.metadata.peek "f" = some (Utf8.encodeAll Json.brackets) :=
      (Entries.get?_cons _ _ _).trans (if_pos rfl)
    rw [Vault.excess?_eq admitted, record, Option.bind_some, Document.toText?_brackets,
      Option.bind_some, Json.excess?_brackets]
  have scalar : Text.isScalar "f" = true := by decide
  refine ⟨fun declared ↦ ?_, fun declared ↦ ?_, fun declared ↦ ?_, fun declared ↦ ?_,
    fun declared ↦ ?_⟩
  · rcases Container.decode_brackets ▸ declared (Container.bare Json.brackets) with
      ⟨c, h⟩ | ⟨fault, h⟩
    · cases h
    · cases h
  · obtain ⟨t, count, long⟩ := Json.exists_long
    have refused := (Metadata.decode_refuses (.text t)).excess _ long
    rcases refused ▸ declared (.text t) with ⟨m, h⟩ | ⟨fault, h⟩
    · cases h
    · cases h
  · obtain ⟨t, deep⟩ : ∃ t, Json.excess? t = some .tooDeep := ⟨_, Json.excess?_brackets⟩
    have refused := (IndexRecord.decode_refuses (.text t)).excess _ deep
    rcases refused ▸ declared (.text t) with ⟨r, h⟩ | ⟨fault, h⟩
    · cases h
    · cases h
  · exact declared v "f" .tooDeep scalar (Vault.deleteFile_error_iff.2 (.inl beyond)) rfl
  · exact declared v "f" .tooDeep scalar (Vault.auditFile_error_iff.2 (.inl beyond)).1 rfl

end ShardVault
