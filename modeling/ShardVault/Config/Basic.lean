import ShardVault.Config.Section
import ShardVault.Key.Source

namespace ShardVault

/-- What is around a program: the names and values of its environment, the name of its system, how its
host writes paths, and the home directory that the host keeps for its user, if any. -/
structure Surroundings where
  environment : Environment
  system : Text
  host : Host
  account : Option Text

namespace Surroundings

/-- The text that names the home directory. Under Windows neither the variable of other hosts nor
what the host keeps has a say in it. -/
def homeText? (s : Surroundings) : Option Text :=
  match s.host with
  | .posix => ((s.environment.get? "HOME").or s.account).map fun value =>
    let kept := (value.reverse.dropWhile (· == CodePoint.ofChar '/')).reverse
    if kept.isEmpty then "/" else kept
  | .windows => (s.environment.get? "USERPROFILE").or ((s.environment.get? "HOMEPATH").map
    (Path.joinTexts ((s.environment.get? "HOMEDRIVE").getD [])))

def home (s : Surroundings) : Except Failure Path :=
  match s.homeText? with
  | some t => if t.head? = some (CodePoint.ofChar '~') then .error .noHome else .ok (s.host.path t)
  | none => .error .noHome

/-- The path in a variable, or else one below the home directory, which must be known either way. -/
def base (s : Surroundings) (variableName : Text) (fallback : List Text) : Except Failure Path := do
  let home ← s.home
  .ok (((s.environment.get? variableName).map s.host.path).getD (home.below fallback))

def dataDir (s : Surroundings) : Except Failure Path := do
  let system := s.system.lower
  let base ←
    if system = "windows" then s.base "LOCALAPPDATA" ["AppData", "Local"]
    else if system = "darwin" then (s.home).map (·.below ["Library", "Application Support"])
    else s.base "XDG_DATA_HOME" [".local", "share"]
  .ok (base.below ["LibreDrive"])

def logDir (s : Surroundings) : Except Failure Path := do
  let system := s.system.lower
  if system = "windows" then
    (s.base "LOCALAPPDATA" ["AppData", "Local"]).map (·.below ["LibreDrive", "Logs"])
  else if system = "darwin" then (s.home).map (·.below ["Library", "Logs", "LibreDrive"])
  else (s.base "XDG_STATE_HOME" [".local", "state"]).map (·.below ["LibreDrive", "logs"])

/-- The section of paths, with the places that the system suggests for those not named. -/
def pathSection (s : Surroundings) (dataDir logDir : Option Path) : Except Failure PathSection := do
  let dataDir ← match dataDir with
    | some path => .ok path
    | none => s.dataDir
  let logDir ← match logDir with
    | some path => .ok path
    | none => s.logDir
  PathSection.of dataDir logDir

end Surroundings

structure Config where
  paths : PathSection
  crypto : CryptoSection
  erasure : ErasureSection
  log : LogSection
  work : WorkSection

def CryptoSection.defaultChunkSize : Nat := 65536

def CryptoSection.default : CryptoSection :=
  ⟨defaultChunkSize, defaultKeyInfo, by decide, by decide⟩

def ErasureSection.default : ErasureSection :=
  ⟨10, 4, by decide, by decide⟩

def LogSection.default : LogSection :=
  ⟨"INFO", 10485760, 5, true, false, false, by decide⟩

def WorkSection.default : WorkSection :=
  ⟨1, by decide⟩

namespace Config

def ofSections (s : Surroundings) (paths : Option PathSection) (crypto : Option CryptoSection)
    (erasure : Option ErasureSection) (log : Option LogSection) (work : Option WorkSection) :
    Except Failure Config := do
  let paths ← match paths with
    | some paths => .ok paths
    | none => s.pathSection none none
  .ok ⟨paths, crypto.getD .default, erasure.getD .default, log.getD .default, work.getD .default⟩

/-- The first sixteen digits of the hash over the descriptions of all sections. -/
def hash (c : Config) : Text :=
  let described := Text.join "|" [c.paths.shown, c.crypto.shown, c.erasure.shown, c.log.shown,
    c.work.shown]
  (Sha256.hex (Utf8.encodeAll described)).take 16

def shown (c : Config) : Text :=
  "StorageConfig(hash=" ++ c.hash ++ ")"

/-- The parts of a configuration that have fields. -/
inductive Part
  | paths
  | crypto
  | erasure
  | log
  | work
  deriving DecidableEq

def Part.all : List Part := [paths, crypto, erasure, log, work]

def Part.name : Part → Text
  | paths => "paths"
  | crypto => "crypto"
  | erasure => "erasure"
  | log => "logging"
  | work => "performance"

def Part.ofName? (name : Text) : Option Part :=
  all.find? fun part => part.name == name

def Part.kind : Part → Text
  | paths => "PathConfig"
  | crypto => "CryptoConfig"
  | erasure => "ErasureConfig"
  | log => "LoggingConfig"
  | work => "PerformanceConfig"

def Part.fields : Part → List Text
  | paths => ["data_dir", "log_dir"]
  | crypto => ["chunk_size", "key_info"]
  | erasure => ["data_shards", "parity_shards"]
  | log => ["level", "max_file_size_bytes", "backup_count", "enable_console", "enable_file",
      "enable_json"]
  | work => ["max_workers"]

/-- The complaint about the first of some names that is no field of a part. -/
def Part.complaint? (part : Part) (names : List Text) : Option Text :=
  (names.find? fun name => !part.fields.contains name).map fun name =>
    part.kind ++ ".__init__() got an unexpected keyword argument '" ++ name ++ "'"

inductive AssignFault
  | sealed
  | frozen (field : Text)
  | unknown

def AssignFault.message : AssignFault → Text
  | sealed => "StorageConfig is immutable after initialization"
  | frozen field => "cannot assign to field " ++ field.quoted
  | unknown => "super(type, obj): obj must be an instance or subtype of type"

def assign (part : Option Part) (field : Text) : AssignFault :=
  match part with
  | none => .sealed
  | some part => if part.fields.contains field then .frozen field else .unknown

end Config

end ShardVault
