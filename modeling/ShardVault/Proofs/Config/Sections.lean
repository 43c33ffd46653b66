import ShardVault.Config.Environment
import ShardVault.Proofs.Result

namespace ShardVault

def Invalid (failure : Failure) : Prop :=
  ∃ fault, failure = .invalid fault

theorem refused_fails {α : Type} (fault : ValueFault) :
    FailsWith Invalid (refused fault : Except Failure α) :=
  .error ⟨fault, rfl⟩

theorem PathSection.of_eq_ok_iff {dataDir logDir : Path} {paths : PathSection} :
    PathSection.of dataDir logDir = .ok paths ↔ paths.dataDir = dataDir ∧ paths.logDir = logDir := by
  constructor
  · intro h
    unfold PathSection.of at h
    split at h
    · split at h
      · obtain rfl := Except.ok.inj h
        exact ⟨rfl, rfl⟩
      · cases h
    · cases h
  · rintro ⟨rfl, rfl⟩
    rw [PathSection.of, dif_pos paths.dataAbsolute, dif_pos paths.logAbsolute]

theorem PathSection.of_fails (dataDir logDir : Path) :
    FailsWith Invalid (PathSection.of dataDir logDir) :=
  .dite (fun _ ↦ .dite (fun _ ↦ .ok _) fun _ ↦ refused_fails _) fun _ ↦ refused_fails _

theorem CryptoSection.of_eq_ok_iff {size : Int} {info : Bytes} {crypto : CryptoSection} :
    CryptoSection.of size info = .ok crypto ↔
      (crypto.chunkSize : Int) = size ∧ crypto.keyInfo = info := by
  constructor
  · intro h
    unfold CryptoSection.of at h
    split at h
    · next positive =>
      split at h
      · obtain rfl := Except.ok.inj h
        exact ⟨Int.toNat_of_nonneg (Int.le_of_lt positive), rfl⟩
      · cases h
    · cases h
  · rintro ⟨rfl, rfl⟩
    rw [CryptoSection.of, dif_pos (Int.natCast_pos.2 crypto.sizePositive),
      dif_pos crypto.infoNonempty]
    simp only [Int.toNat_natCast]

theorem CryptoSection.of_fails (size : Int) (info : Bytes) :
    FailsWith Invalid (CryptoSection.of size info) :=
  .dite (fun _ ↦ .dite (fun _ ↦ .ok _) fun _ ↦ refused_fails _) fun _ ↦ refused_fails _

theorem ErasureSection.of_eq_ok_iff {data parity : Int} {erasure : ErasureSection} :
    ErasureSection.of data parity = .ok erasure ↔
      (erasure.dataShards : Int) = data ∧ (erasure.parityShards : Int) = parity := by
  constructor
  · intro h
    unfold ErasureSection.of at h
    split at h
    · next positive =>
      split at h
      · next positive' =>
        obtain rfl := Except.ok.inj h
        exact ⟨Int.toNat_of_nonneg (Int.le_of_lt positive),
          Int.toNat_of_nonneg (Int.le_of_lt positive')⟩
      · cases h
    · cases h
  · rintro ⟨rfl, rfl⟩
    rw [ErasureSection.of, dif_pos (Int.natCast_pos.2 erasure.dataPositive),
      dif_pos (Int.natCast_pos.2 erasure.parityPositive)]
    simp only [Int.toNat_natCast]

theorem ErasureSection.of_fails (data parity : Int) :
    FailsWith Invalid (ErasureSection.of data parity) :=
  .dite (fun _ ↦ .dite (fun _ ↦ .ok _) fun _ ↦ refused_fails _) fun _ ↦ refused_fails _

theorem WorkSection.of_eq_ok_iff {count : Int} {work : WorkSection} :
    WorkSection.of count = .ok work ↔ (work.maxWorkers : Int) = count := by
  constructor
  · intro h
    unfold WorkSection.of at h
    split at h
    · next positive =>
      obtain rfl := Except.ok.inj h
      exact Int.toNat_of_nonneg (by omega)
    · cases h
  · rintro rfl
    have least : 1 ≤ (work.maxWorkers : Int) := Int.natCast_pos.2 work.positive
    rw [WorkSection.of, dif_pos least]
    simp only [Int.toNat_natCast]

theorem WorkSection.of_fails (count : Int) : FailsWith Invalid (WorkSection.of count) :=
  .dite (fun _ ↦ .ok _) fun _ ↦ refused_fails _

variable {level : Text} {size count : Int} {toConsole toFile asJson : Bool}

theorem LogSection.of_eq_ok_iff {log : LogSection} :
    LogSection.of level size count toConsole toFile asJson = .ok log ↔
      log.level = level ∧ log.maxFileSize = size ∧ log.backupCount = count ∧
        log.toConsole = toConsole ∧ log.toFile = toFile ∧ log.asJson = asJson := by
  constructor
  · intro h
    unfold LogSection.of at h
    split at h
    · obtain rfl := Except.ok.inj h
      exact ⟨rfl, rfl, rfl, rfl, rfl, rfl⟩
    · cases h
  · rintro ⟨rfl, rfl, rfl, rfl, rfl, rfl⟩
    rw [LogSection.of, dif_pos log.levelKnown]

theorem LogSection.of_fails :
    FailsWith Invalid (LogSection.of level size count toConsole toFile asJson) :=
  .dite (fun _ ↦ .ok _) fun _ ↦ refused_fails _

/-- A number is the one that a text spells, or a default if there is no text. -/
def Reads (t : Option Text) (default n : Int) : Prop :=
  match t with
  | some t => Numeral.read t = .ok n
  | none => n = default

theorem reads_iff {t : Option Text} {default n : Int} :
    Reads t default n ↔ ∃ found, number? t = .ok found ∧ found.getD default = n := by
  cases t with
  | none => simp [Reads, number?, eq_comm]
  | some t => simp [Reads, number?, map_eq_ok, mapError_eq_ok]

theorem whenAny_iff {α : Type} {given : List Bool} {made : Except Failure α} {default a : α}
    (idle : given.any (· == true) = false → made = .ok default) :
    (∃ found, whenAny given made = .ok found ∧ found.getD default = a) ↔ made = .ok a := by
  unfold whenAny
  split
  · simp [map_eq_ok]
  · next none =>
    rw [idle (Bool.eq_false_iff.2 none)]
    simp

theorem CryptoSection.whenAny_iff {size : Option Int} {crypto : CryptoSection} :
    (∃ found, whenAny [size.isSome] (CryptoSection.of (size.getD defaultChunkSize) defaultKeyInfo) =
        .ok found ∧ found.getD .default = crypto) ↔
      (crypto.chunkSize : Int) = size.getD defaultChunkSize ∧ crypto.keyInfo = defaultKeyInfo := by
  rw [ShardVault.whenAny_iff, CryptoSection.of_eq_ok_iff]
  cases size with
  | none => exact fun _ ↦ CryptoSection.of_eq_ok_iff.2 ⟨rfl, rfl⟩
  | some size => exact nofun

theorem ErasureSection.whenAny_iff {data parity : Option Int} {erasure : ErasureSection} :
    (∃ found, whenAny [data.isSome, parity.isSome]
        (ErasureSection.of (data.getD 10) (parity.getD 4)) = .ok found ∧
        found.getD .default = erasure) ↔
      (erasure.dataShards : Int) = data.getD 10 ∧ (erasure.parityShards : Int) = parity.getD 4 := by
  rw [ShardVault.whenAny_iff, ErasureSection.of_eq_ok_iff]
  intro idle
  obtain ⟨rfl, rfl⟩ : data = none ∧ parity = none := by simpa using idle
  exact ErasureSection.of_eq_ok_iff.2 ⟨rfl, rfl⟩

theorem LogSection.whenAny_iff {level : Option Text} {toConsole toFile asJson : Option Bool}
    {log : LogSection} :
    (∃ found, whenAny [level.isSome, toConsole.isSome, toFile.isSome, asJson.isSome]
        (LogSection.of (level.getD "INFO") 10485760 5 (toConsole.getD true) (toFile.getD false)
          (asJson.getD false)) = .ok found ∧ found.getD .default = log) ↔
      log.level = level.getD "INFO" ∧ log.maxFileSize = 10485760 ∧ log.backupCount = 5 ∧
        log.toConsole = toConsole.getD true ∧ log.toFile = toFile.getD false ∧
        log.asJson = asJson.getD false := by
  rw [ShardVault.whenAny_iff, LogSection.of_eq_ok_iff]
  intro idle
  obtain ⟨rfl, rfl, rfl, rfl⟩ :
      level = none ∧ toConsole = none ∧ toFile = none ∧ asJson = none := by simpa using idle
  exact LogSection.of_eq_ok_iff.2 ⟨rfl, rfl, rfl, rfl, rfl, rfl⟩

theorem WorkSection.whenAny_iff {count : Option Int} {work : WorkSection} :
    (∃ found, whenAny [count.isSome] (WorkSection.of (count.getD 1)) = .ok found ∧
        found.getD .default = work) ↔ (work.maxWorkers : Int) = count.getD 1 := by
  rw [ShardVault.whenAny_iff, WorkSection.of_eq_ok_iff]
  cases count with
  | none => exact fun _ ↦ WorkSection.of_eq_ok_iff.2 rfl
  | some count => exact nofun

theorem number?_fails (t : Option Text) : FailsWith Invalid (number? t) := by
  cases t with
  | none => exact .ok none
  | some t => exact (FailsWith.mapError fun fault ↦ ⟨.numeral fault, rfl⟩).map some

theorem whenAny_fails {α : Type} {given : List Bool} {made : Except Failure α}
    (h : FailsWith Invalid made) : FailsWith Invalid (whenAny given made) :=
  .ite (h.map some) (.ok none)

end ShardVault
