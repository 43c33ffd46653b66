import ShardVault.Log.Record
import ShardVault.Proofs.Catalogue.RoundTrip
import ShardVault.Proofs.Json.Ascii
import ShardVault.Proofs.Time.Stamps

namespace ShardVault

namespace Json

theorem line_sound : line.Sound :=
  ⟨⟨_, rfl, isSpace_of_mem_singleton⟩, ⟨_, rfl, isSpace_of_mem_singleton⟩⟩

theorem line_printed : line.Printed := ⟨rfl, by decide, by decide⟩

end Json

namespace Log

variable {r : Record} {time : DateTime} {message : Text}

theorem isScalar_levelName (level : Int) : (levelName level).isScalar = true := by
  have names : ∀ p ∈ levelNames, p.2.isScalar = true := by decide
  unfold levelName
  cases found : levelNames.lookup level with
  | none =>
    rw [Option.getD_none, Text.isScalar_append, Text.isScalar_ofInt]
    rfl
  | some name =>
    obtain ⟨before, after, split, -⟩ := List.lookup_eq_some_iff.1 found
    exact names (level, name) (by rw [split]; simp)

/-- The record with its description of what went wrong as it is read back. -/
def Record.paired (r : Record) : Record :=
  { r with exception := r.exception.map Text.paired }

theorem write_told_paired (r : Record) (time : DateTime) (message : Text) :
    Json.write Json.line (.object (told r.paired time message)) =
      Json.write Json.line (.object (told r time message)) := by
  have same (key t : Text) : Json.fieldText Json.line (key, .text t.paired) =
      Json.fieldText Json.line (key, .text t) := by
    simp only [Json.fieldText, Json.write, Json.line, Json.writeText_paired]
  rw [Json.write_object, Json.write_object]
  simp only [Json.Style.order, Json.line, Bool.false_eq_true, if_false, told, Record.paired] at same ⊢
  cases r.exception with
  | none => rfl
  | some description =>
    simp only [Option.map_some, Option.toList_some, List.map_append, List.map_cons, List.map_nil,
      same]
    rfl

/-- The keys of an object for a record, the last one only if something went wrong. -/
def toldKeys : List Text :=
  ["timestamp", "level", "logger", "message", "module", "function", "line", "exception"]

theorem keys_told (r : Record) (time : DateTime) (message : Text) :
    ((told r time message).map (·.1)).Sublist toldKeys := by
  unfold told
  cases r.exception with
  | none => exact List.take_sublist 7 toldKeys
  | some description => exact List.Sublist.refl toldKeys

theorem nodup_told (r : Record) (time : DateTime) (message : Text) :
    ((told r time message).map (·.1)).Nodup := by
  have distinct : toldKeys.Nodup := by decide
  exact (keys_told r time message).nodup distinct

theorem readable_told (writable : (Json.int r.line).isWritable = true)
    (unpaired : ∀ t ∈ [message, r.logger, r.moduleName, r.function], t.Unpaired)
    (time : DateTime) :
    Json.Readable true Json.nestingLimit (.object (told r.paired time message)) := by
  refine .object _ (nodup_told _ _ _) ?_ ?_
  · intro p hp
    have keys : ∀ key ∈ toldKeys, key.isScalar = true := by decide
    have there := (keys_told _ _ _).subset (List.mem_map_of_mem (f := (·.1)) hp)
    exact Json.legible_of_isScalar (keys p.1 there) true
  · have text {depth : Nat} {t : Text} (h : t.Unpaired) : Json.Readable true depth (.text t) :=
      .text t fun _ ↦ h
    have line {depth : Nat} : Json.Readable true depth (.int r.line) :=
      .int _ (by simpa [Json.isWritable] using writable)
    have shown := Text.unpaired_of_isScalar time.isScalar_shown
    have level := Text.unpaired_of_isScalar (isScalar_levelName r.level)
    simp only [List.forall_mem_cons] at unpaired
    obtain ⟨hm, hl, ho, hf, -⟩ := unpaired
    refine List.forall_mem_append.2 ⟨?_, ?_⟩
    · simp only [List.forall_mem_cons]
      exact ⟨text shown, text level, text hl, text hm, text ho, text hf, line, List.forall_mem_nil _⟩
    · intro p hp
      obtain ⟨description, there, rfl⟩ := List.mem_map.1 hp
      obtain ⟨e, -, rfl⟩ := Option.map_eq_some_iff.1 (Option.mem_toList.1 there)
      exact .text _ fun _ ↦ Text.unpaired_paired e

theorem isWritable_told (r : Record) (time : DateTime) (message : Text) :
    (Json.object (told r time message)).isWritable = (Json.int r.line).isWritable := by
  rw [Json.isWritable_object, told]
  cases r.exception <;>
    simp [Json.fieldsWritable, Json.isWritable]

theorem line_object_eq_ok {t : Text} (made : r.message = .ok message) : line .object r = .ok t ↔
    (Json.int r.line).isWritable = true ∧ ∃ time, r.created.dateTime = .ok time ∧
      Json.write Json.line (.object (told r time message)) = t := by
  rw [line, if_pos rfl, made]
  simp only [mapError_ok, ok_bind, bind_eq_ok, mapError_eq_ok, Json.encode_eq_ok_iff, isWritable_told]
  constructor
  · rintro ⟨time, stamped, writable, written⟩
    exact ⟨writable, time, stamped, written⟩
  · rintro ⟨writable, time, stamped, written⟩
    exact ⟨time, stamped, writable, written⟩

/-- Fields tell of a record and its message what an object for it does. -/
structure Tells (fields : Entries Json) (r : Record) (message : Text) : Prop where
  message : Json.requireText fields "message" = .ok message
  level : Json.requireText fields "level" = .ok (levelName r.level)
  logger : Json.requireText fields "logger" = .ok r.logger
  module : Json.requireText fields "module" = .ok r.moduleName
  function : Json.requireText fields "function" = .ok r.function
  line : Json.requireInt fields "line" = .ok r.line

theorem tells_readFieldsOf (r : Record) (time : DateTime) (message : Text) :
    Tells (Json.readFieldsOf Json.line (told r.paired time message)) r message := by
  have distinct := nodup_told r.paired time message
  constructor
  iterate 5 exact Json.requireText_readFieldsOf distinct rfl
  exact Json.requireInt_readFieldsOf distinct rfl

/-- A record with a message has a line that holds an object just if its time is a point in time and
the number of its line may be written; else there is a failure and no line. The line is printed
ASCII, and it is read back as what the record tells. No text may hold two halves of a pair one after
the other, since these are read as one code point; texts without surrogates do not. -/
theorem line_object_iff (made : r.message = .ok message)
    (unpaired : ∀ t ∈ [message, r.logger, r.moduleName, r.function], t.Unpaired) :
    ((r.created.InYears ∧ (Json.int r.line).isWritable = true) ↔
      ∃ t fields, line .object r = .ok t ∧ t.isPrinted = true ∧
        (Document.text t).fields = .ok fields ∧ Tells fields r message) ∧
    (¬ (r.created.InYears ∧ (Json.int r.line).isWritable = true) →
      ∃ failure, line .object r = .error failure) := by
  have given {t : Text} (h : line .object r = .ok t) :
      r.created.InYears ∧ (Json.int r.line).isWritable = true := by
    obtain ⟨writable, time, stamped, -⟩ := (line_object_eq_ok made).1 h
    exact ⟨Stamp.exists_dateTime_iff.1 ⟨time, stamped⟩, writable⟩
  refine ⟨⟨?_, fun ⟨t, fields, h, _⟩ ↦ given h⟩, fun other ↦ ?_⟩
  · rintro ⟨inYears, writable⟩
    obtain ⟨time, stamped⟩ := Stamp.exists_dateTime_iff.2 inYears
    have readable := readable_told writable unpaired time
    have written := (write_told_paired r time message).symm
    refine ⟨_, _, (line_object_eq_ok made).2 ⟨writable, time, stamped, written⟩, ?_, ?_,
      tells_readFieldsOf r time message⟩
    · exact readable.isPrinted_write Json.line_printed
    · exact Document.fields_write Json.line_sound readable
  · cases h : line .object r with
    | error failure => exact ⟨failure, rfl⟩
    | ok t => exact absurd (given h) other

/-- A record whose message and function would end the text, the object and the line. -/
def sly : Record where
  template := .text ("\"\x7d\n\\\u0007" ++ [CodePoint.ofNat 0x1F600])
  arguments := .ordered []
  level := 25
  logger := "vault"
  file := "/app/vault.py"
  line := 1
  function := "open\r\n"
  created := .whole 0
  exception := some [CodePoint.ofNat 0xD83D, CodePoint.ofNat 0xDE00]

theorem line_object_iff_sly : ∃ t fields, line .object sly = .ok t ∧ t.isPrinted = true ∧
    (Document.text t).fields = .ok fields ∧
      Tells fields sly ("\"\x7d\n\\\u0007" ++ [CodePoint.ofNat 0x1F600]) := by
  have inYears : sly.created.InYears := ⟨rfl, by decide, by decide⟩
  refine (line_object_iff rfl fun t ht ↦ Text.unpaired_of_isScalar ?_).1.1
    ⟨inYears, Json.isWritable_int (by decide)⟩
  revert t
  decide

/-- The first second after the year 9999 is no point in time, and a record of it has no line. -/
theorem not_exists_line_late :
    let late : Record := { sly with created := .whole 253402300800 }
    late.message = .ok ("\"\x7d\n\\\u0007" ++ [CodePoint.ofNat 0x1F600]) ∧
      (∀ t ∈ [late.logger, late.moduleName, late.function], t.isScalar = true) ∧
      line .object late = .error (.stamp (.year 10000)) := by
  refine ⟨rfl, by decide, ?_⟩
  decide

end Log

end ShardVault
