import ShardVault.Container.Encrypt
import ShardVault.Proofs.Config.Overrides
import ShardVault.Proofs.Config.Places
import ShardVault.Proofs.Text.Case
import ShardVault.Shard.Layout

namespace ShardVault

variable {s s' : Surroundings} {lead : Text}

namespace Config

/-- A configuration is the one that the variables under a prefix describe: every field is read from
the last variable for its key, or has its default. -/
structure Follows (s : Surroundings) (lead : Text) (c : Config) : Prop where
  dataDir : Surroundings.Places s.host (lastValue? s.environment lead "paths.data_dir") s.dataDir
    c.paths.dataDir
  logDir : Surroundings.Places s.host (lastValue? s.environment lead "paths.log_dir") s.logDir
    c.paths.logDir
  chunkSize : Reads (lastValue? s.environment lead "crypto.chunk_size") 65536 c.crypto.chunkSize
  dataShards : Reads (lastValue? s.environment lead "erasure.data_shards") 10 c.erasure.dataShards
  parityShards : Reads (lastValue? s.environment lead "erasure.parity_shards") 4
    c.erasure.parityShards
  maxWorkers : Reads (lastValue? s.environment lead "performance.max_workers") 1 c.work.maxWorkers
  level : c.log.level =
    ((lastValue? s.environment lead "logging.level").map Text.upper).getD "INFO"
  toConsole : c.log.toConsole =
    ((lastValue? s.environment lead "logging.enable_console").map saysYes).getD true
  toFile : c.log.toFile =
    ((lastValue? s.environment lead "logging.enable_file").map saysYes).getD false
  asJson : c.log.asJson =
    ((lastValue? s.environment lead "logging.enable_json").map saysYes).getD false
  keyInfo : c.crypto.keyInfo = defaultKeyInfo
  maxFileSize : c.log.maxFileSize = 10485760
  backupCount : c.log.backupCount = 5

theorem ofSections_eq (s : Surroundings) (paths : Option PathSection)
    (crypto : Option CryptoSection) (erasure : Option ErasureSection) (log : Option LogSection)
    (work : Option WorkSection) : ofSections s paths crypto erasure log work =
      paths.elim (s.pathSection none none) .ok >>= fun paths ↦
        .ok ⟨paths, crypto.getD .default, erasure.getD .default, log.getD .default,
          work.getD .default⟩ := by
  cases paths <;> rfl

theorem follows_of_load {c : Config} (h : load s lead = .ok c) : c.Follows s lead := by
  simp only [load, ofSections_eq, get?_overrides] at h
  obtain ⟨chunkSize, hsize, h⟩ := bind_eq_ok.1 h
  obtain ⟨dataShards, hdata, h⟩ := bind_eq_ok.1 h
  obtain ⟨parityShards, hparity, h⟩ := bind_eq_ok.1 h
  obtain ⟨maxWorkers, hworkers, h⟩ := bind_eq_ok.1 h
  obtain ⟨paths, hpaths, h⟩ := bind_eq_ok.1 h
  obtain ⟨crypto, hcrypto, h⟩ := bind_eq_ok.1 h
  obtain ⟨erasure, herasure, h⟩ := bind_eq_ok.1 h
  obtain ⟨log, hlog, h⟩ := bind_eq_ok.1 h
  obtain ⟨work, hwork, h⟩ := bind_eq_ok.1 h
  obtain ⟨placed, hplaced, h⟩ := bind_eq_ok.1 h
  obtain rfl := Except.ok.inj h
  obtain ⟨dataDir, logDir⟩ := Surroundings.pathSection_eq_ok_iff.1
    (Surroundings.whenAny_iff.1 ⟨paths, hpaths, hplaced⟩)
  obtain ⟨size, info⟩ := CryptoSection.whenAny_iff.1 ⟨crypto, hcrypto, rfl⟩
  obtain ⟨data, parity⟩ := ErasureSection.whenAny_iff.1 ⟨erasure, herasure, rfl⟩
  obtain ⟨level, fileSize, backups, toConsole, toFile, asJson⟩ :=
    LogSection.whenAny_iff.1 ⟨log, hlog, rfl⟩
  have count := WorkSection.whenAny_iff.1 ⟨work, hwork, rfl⟩
  exact {
    dataDir, logDir, level, toConsole, toFile, asJson
    chunkSize := reads_iff.2 ⟨chunkSize, hsize, size.symm⟩
    dataShards := reads_iff.2 ⟨dataShards, hdata, data.symm⟩
    parityShards := reads_iff.2 ⟨parityShards, hparity, parity.symm⟩
    maxWorkers := reads_iff.2 ⟨maxWorkers, hworkers, count.symm⟩
    keyInfo := info
    maxFileSize := fileSize
    backupCount := backups }

theorem Follows.load {c : Config} (h : c.Follows s lead) : load s lead = .ok c := by
  obtain ⟨chunkSize, hsize, size⟩ := reads_iff.1 h.chunkSize
  obtain ⟨dataShards, hdata, data⟩ := reads_iff.1 h.dataShards
  obtain ⟨parityShards, hparity, parity⟩ := reads_iff.1 h.parityShards
  obtain ⟨maxWorkers, hworkers, count⟩ := reads_iff.1 h.maxWorkers
  obtain ⟨paths, hpaths, hplaced⟩ := Surroundings.whenAny_iff.2
    (Surroundings.pathSection_eq_ok_iff.2 ⟨h.dataDir, h.logDir⟩)
  obtain ⟨crypto, hcrypto, cryptoIs⟩ := CryptoSection.whenAny_iff.2 ⟨size.symm, h.keyInfo⟩
  obtain ⟨erasure, herasure, erasureIs⟩ := ErasureSection.whenAny_iff.2 ⟨data.symm, parity.symm⟩
  obtain ⟨log, hlog, logIs⟩ := LogSection.whenAny_iff.2
    ⟨h.level, h.maxFileSize, h.backupCount, h.toConsole, h.toFile, h.asJson⟩
  obtain ⟨work, hwork, workIs⟩ := WorkSection.whenAny_iff.2 count.symm
  simp only [Config.load, ofSections_eq, get?_overrides, hsize, hdata, hparity, hworkers, hpaths,
    hplaced, hcrypto, herasure, hlog, hwork, ok_bind, cryptoIs, erasureIs, logIs, workIs]

theorem load_eq_ok_iff {c : Config} : load s lead = .ok c ↔ c.Follows s lead :=
  ⟨follows_of_load, Follows.load⟩

/-- Where there is a home, loading fails for no other reason than a value that is refused. -/
theorem load_fails (h : ∃ home, s.home = .ok home) (lead : Text) :
    FailsWith Invalid (load s lead) := by
  refine (number?_fails _).bind fun chunkSize _ ↦ ?_
  refine (number?_fails _).bind fun dataShards _ ↦ ?_
  refine (number?_fails _).bind fun parityShards _ ↦ ?_
  refine (number?_fails _).bind fun maxWorkers _ ↦ ?_
  refine (whenAny_fails (Surroundings.pathSection_fails h _ _)).bind fun paths _ ↦ ?_
  refine (whenAny_fails (CryptoSection.of_fails _ _)).bind fun crypto _ ↦ ?_
  refine (whenAny_fails (ErasureSection.of_fails _ _)).bind fun erasure _ ↦ ?_
  refine (whenAny_fails LogSection.of_fails).bind fun log _ ↦ ?_
  refine (whenAny_fails (WorkSection.of_fails _)).bind fun work _ ↦ ?_
  rw [ofSections_eq]
  refine FailsWith.bind ?_ fun placed _ ↦ .ok _
  cases paths with
  | none => exact Surroundings.pathSection_fails h none none
  | some paths => exact .ok paths

/-- What holds of a configuration, so that whatever is built from it can be built. -/
structure Fit (c : Config) : Prop where
  dataAbsolute : c.paths.dataDir.isAbsolute = true
  logAbsolute : c.paths.logDir.isAbsolute = true
  chunkSize : 0 < c.crypto.chunkSize
  dataShards : 0 < c.erasure.dataShards
  parityShards : 0 < c.erasure.parityShards
  maxWorkers : 0 < c.work.maxWorkers
  level : c.log.level ∈ logLevels
  encryptor : ∀ deriver, ∃ e, Container.Encryptor.of deriver c.crypto.chunkSize = .ok e
  layout : ∃ l, Layout.of c.erasure.dataShards c.erasure.parityShards = .ok l

theorem Follows.fit {c : Config} (h : c.Follows s lead) : c.Fit where
  dataAbsolute := c.paths.dataAbsolute
  logAbsolute := c.paths.logAbsolute
  chunkSize := c.crypto.sizePositive
  dataShards := c.erasure.dataPositive
  parityShards := c.erasure.parityPositive
  maxWorkers := c.work.positive
  level := by
    have known := c.log.levelKnown
    rw [h.level] at known ⊢
    generalize lastValue? s.environment lead "logging.level" = found at known ⊢
    cases found with
    | none => exact .tail _ (.head _)
    | some value =>
      simp only [Option.map_some, Option.getD_some, Text.upper_upper] at known ⊢
      exact List.contains_iff_mem.1 known
  encryptor deriver := ⟨_, dif_pos (Int.natCast_pos.2 c.crypto.sizePositive)⟩
  layout := ⟨_, dif_pos ⟨Int.natCast_pos.2 c.erasure.dataPositive,
    Int.natCast_pos.2 c.erasure.parityPositive⟩⟩

/-- Two programs are told the same by what counts: the variables that count for a prefix are the same
in order, and so is all from which the system takes its places. -/
structure Alike (lead : Text) (s s' : Surroundings) : Prop extends Surroundings.SamePlaces s s' where
  counting : s'.environment.filter (fun p ↦ Counts lead p.1) =
    s.environment.filter fun p ↦ Counts lead p.1

theorem load_congr (h : Alike lead s s') : load s' lead = load s lead := by
  have same : ∀ key ∈ overridable,
      lastValue? s'.environment lead key = lastValue? s.environment lead key :=
    fun key hk ↦ lastValue?_congr h.counting hk
  simp only [overridable, List.forall_mem_cons] at same
  obtain ⟨dataDir, logDir, size, data, parity, level, toConsole, toFile, asJson, workers, -⟩ := same
  simp only [load, ofSections, get?_overrides, dataDir, logDir, size, data, parity, level,
    toConsole, toFile, asJson, workers, h.host, h.toSamePlaces.pathSection_eq]

/-- Where a home is told, loading gives the configuration that the variables describe, which is fit
to build from, or refuses a value; and whatever does not count does not matter. -/
theorem load_confined (s : Surroundings) (lead : Text) (told : s.TellsHome) :
    FailsWith Invalid (load s lead) ∧
      (∀ c, load s lead = .ok c ↔ c.Follows s lead) ∧
      (∀ c, load s lead = .ok c → c.Fit) ∧
      ∀ s', Alike lead s s' → load s' lead = load s lead :=
  ⟨load_fails (Surroundings.exists_home told) lead, fun c ↦ load_eq_ok_iff,
    fun c h ↦ (load_eq_ok_iff.1 h).fit, fun s' h ↦ load_congr h⟩

def talkative : Surroundings :=
  ⟨[("HOME", "/home/u"), ("LIBREDRIVE_LOGGING__LEVEL", "debug")], "Linux", .posix, none⟩

def laden : Surroundings :=
  ⟨[("PATH", "/bin"), ("HOME", "/home/u"), ("LIBREDRIVE_CRYPTO__KEY_INFO", "x"),
    ("LIBREDRIVE_LOGGING__LEVEL", "debug")], "Linux", .posix, none⟩

theorem alike_laden : Alike "libredrive" talkative laden where
  system := rfl
  host := rfl
  account := rfl
  home := by decide +kernel
  place := by decide +kernel
  counting := by decide +kernel

theorem load_confined_talkative : ∃ c : Config, load talkative "libredrive" = .ok c ∧
    c.log.level = "DEBUG" ∧ c.Fit ∧ load laden "libredrive" = .ok c := by
  have told : talkative.TellsHome := ⟨"/home/u", rfl, rfl⟩
  obtain ⟨-, -, fit, same⟩ := load_confined talkative "libredrive" told
  have level : (load talkative "libredrive").toOption.map (fun c ↦ c.log.level) = some "DEBUG" := by
    decide +kernel
  cases loaded : load talkative "libredrive" with
  | error failure =>
    rw [loaded] at level
    cases level
  | ok c =>
    rw [loaded] at level
    exact ⟨c, rfl, Option.some.inj level, fit c loaded, (same _ alike_laden).trans loaded⟩

def windows (environment : Environment) : Surroundings :=
  ⟨environment, "Windows", .windows, none⟩

def homeless : Surroundings :=
  windows [("HOME", "C:\\u")]

def profiled : Surroundings :=
  windows [("HOME", "C:\\u"), ("USERPROFILE", "C:\\u")]

def moved : Surroundings :=
  windows [("HOME", "C:\\u"), ("USERPROFILE", "C:\\u"), ("LOCALAPPDATA", "D:\\x")]

theorem load_homeless : load homeless "LIBREDRIVE" = .error .noHome := by
  rfl

/-- Under Windows the variable that names a home elsewhere does not tell one, and a variable without
the prefix decides where data are kept. -/
theorem not_load_alike :
    (¬ ∀ (s : Surroundings) (lead home : Text), s.environment.get? "HOME" = some home →
      (s.host.path home).isAbsolute = true → FailsWith Invalid (load s lead)) ∧
    ¬ ∀ (s s' : Surroundings) (lead home : Text), s.environment.get? "HOME" = some home →
      (s.host.path home).isAbsolute = true →
      s'.system = s.system → s'.host = s.host → s'.account = s.account →
      (∀ name : Text, name = "HOME" ∨ ("XDG_" : Text) <+: name →
        s'.environment.get? name = s.environment.get? name) →
      s'.environment.filter (fun p ↦ Counts lead p.1) =
        s.environment.filter (fun p ↦ Counts lead p.1) →
      load s' lead = load s lead := by
  constructor
  · intro confined
    have fails := confined homeless "LIBREDRIVE" "C:\\u" rfl rfl
    rw [load_homeless] at fails
    obtain ⟨fault, invalid⟩ := fails.of_eq _ rfl
    cases invalid
  · intro confined
    have plain : (load profiled "LIBREDRIVE").toOption.map (fun c ↦ c.paths.dataDir) =
        some (Path.ofWindows "C:\\u\\AppData\\Local\\LibreDrive") := by
      decide +kernel
    have other : (load moved "LIBREDRIVE").toOption.map (fun c ↦ c.paths.dataDir) =
        some (Path.ofWindows "D:\\x\\LibreDrive") := by
      decide +kernel
    have kept (name : Text) (h : name = "HOME" ∨ ("XDG_" : Text) <+: name) :
        moved.environment.get? name = profiled.environment.get? name := by
      rcases h with rfl | ⟨rest, rfl⟩
      · rfl
      · rfl
    have same := confined profiled moved "LIBREDRIVE" "C:\\u" rfl rfl rfl rfl rfl kept
      (by decide +kernel)
    rw [same, plain] at other
    exact absurd other (by decide)

end Config

end ShardVault
