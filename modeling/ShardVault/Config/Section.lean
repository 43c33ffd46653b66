import ShardVault.Binary64
import ShardVault.Bytes.Quoted
import ShardVault.Config.Path
import ShardVault.Failure
import ShardVault.Text.Letter

namespace ShardVault

structure PathSection where
  dataDir : Path
  logDir : Path
  dataAbsolute : dataDir.isAbsolute = true
  logAbsolute : logDir.isAbsolute = true

/-- How large chunks are, and the label for deriving keys. -/
structure CryptoSection where
  chunkSize : Nat
  keyInfo : Bytes
  sizePositive : 0 < chunkSize
  infoNonempty : keyInfo ≠ []

/-- How many data and parity shards there are. -/
structure ErasureSection where
  dataShards : Nat
  parityShards : Nat
  dataPositive : 0 < dataShards
  parityPositive : 0 < parityShards

def logLevels : List Text :=
  ["DEBUG", "INFO", "WARNING", "ERROR", "CRITICAL"]

structure LogSection where
  level : Text
  maxFileSize : Int
  backupCount : Int
  toConsole : Bool
  toFile : Bool
  asJson : Bool
  levelKnown : logLevels.contains level.upper = true

structure WorkSection where
  maxWorkers : Nat
  positive : 0 < maxWorkers

def refused {α : Type} (fault : ValueFault) : Except Failure α :=
  .error (.invalid fault)

def PathSection.of (dataDir logDir : Path) : Except Failure PathSection :=
  if hd : dataDir.isAbsolute = true then
    if hl : logDir.isAbsolute = true then .ok ⟨dataDir, logDir, hd, hl⟩
    else refused (.relativePath "log_dir" logDir.shown)
  else refused (.relativePath "data_dir" dataDir.shown)

def CryptoSection.of (chunkSize : Int) (keyInfo : Bytes) : Except Failure CryptoSection :=
  if hs : 0 < chunkSize then
    if hi : keyInfo ≠ [] then .ok ⟨chunkSize.toNat, keyInfo, by omega, hi⟩
    else refused .emptyKeyInfo
  else refused .chunkSize

def ErasureSection.of (dataShards parityShards : Int) : Except Failure ErasureSection :=
  if hd : 0 < dataShards then
    if hp : 0 < parityShards then .ok ⟨dataShards.toNat, parityShards.toNat, by omega, by omega⟩
    else refused .parityShards
  else refused .dataShards

def LogSection.of (level : Text) (maxFileSize backupCount : Int) (toConsole toFile asJson : Bool) :
    Except Failure LogSection :=
  if h : logLevels.contains level.upper = true then
    .ok ⟨level, maxFileSize, backupCount, toConsole, toFile, asJson, h⟩
  else refused (.logLevel level)

def WorkSection.of (maxWorkers : Int) : Except Failure WorkSection :=
  if h : 1 ≤ maxWorkers then .ok ⟨maxWorkers.toNat, by omega⟩ else refused .maxWorkers

def ErasureSection.total (e : ErasureSection) : Nat :=
  e.dataShards + e.parityShards

def ErasureSection.overhead (e : ErasureSection) : Except Failure Binary64 :=
  match Binary64.ofRatio? false e.total e.dataShards with
  | some x => .ok x
  | none => .error (.overflow .ratio)

def shownBool (b : Bool) : Text :=
  if b then "True" else "False"

def shownFields (name : Text) (fields : List (Text × Text)) : Text :=
  name ++ "(" ++ Text.join ", " (fields.map fun (key, value) => key ++ "=" ++ value) ++ ")"

def PathSection.shown (s : PathSection) : Text :=
  shownFields "PathConfig" [("data_dir", s.dataDir.quoted), ("log_dir", s.logDir.quoted)]

def CryptoSection.shown (s : CryptoSection) : Text :=
  shownFields "CryptoConfig" [("chunk_size", Text.ofNat s.chunkSize),
    ("key_info", s.keyInfo.quoted)]

def ErasureSection.shown (s : ErasureSection) : Text :=
  shownFields "ErasureConfig" [("data_shards", Text.ofNat s.dataShards),
    ("parity_shards", Text.ofNat s.parityShards)]

def LogSection.shown (s : LogSection) : Text :=
  shownFields "LoggingConfig" [("level", s.level.quoted),
    ("max_file_size_bytes", Text.ofInt s.maxFileSize), ("backup_count", Text.ofInt s.backupCount),
    ("enable_console", shownBool s.toConsole), ("enable_file", shownBool s.toFile),
    ("enable_json", shownBool s.asJson)]

def WorkSection.shown (s : WorkSection) : Text :=
  shownFields "PerformanceConfig" [("max_workers", Text.ofNat s.maxWorkers)]

end ShardVault
