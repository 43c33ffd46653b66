import ShardVault.Config.Basic

namespace ShardVault

def sensitiveWords : List Text :=
  ["password", "secret", "key", "token", "api_key", "private", "credential", "auth", "salt",
    "master"]

def isSensitive (key : Text) : Bool :=
  let lowered := key.lower
  sensitiveWords.any fun word => word.occursIn lowered

/-- A point for every two low lines, from the left; `done` is held backwards. -/
def pointForLines (done : Text) : Text → Text
  | [] => done.reverse
  | [c] => (c :: done).reverse
  | c :: d :: rest =>
    if c = CodePoint.ofChar '_' && d = CodePoint.ofChar '_' then
      pointForLines (CodePoint.ofChar '.' :: done) rest
    else pointForLines (c :: done) (d :: rest)

def overriddenKey? (lead : Text) (name : Text) : Option Text :=
  let start := lead.upper ++ "_"
  if start.isPrefixOf name then
    let key := pointForLines [] (Text.lower (name.drop start.length))
    if isSensitive key then none else some key
  else none

/-- The values of all keys that are overridden under a prefix; the last variable of a key
counts. -/
def overrides (environment : Environment) (lead : Text) : Entries Text :=
  Entries.ofList (environment.filterMap fun (name, value) =>
    (overriddenKey? lead name).map fun key => (key, value))

def saysYes (t : Text) : Bool :=
  (["1", "true", "yes", "on"] : List Text).contains t.trim.lower

def number? (t : Option Text) : Except Failure (Option Int) :=
  match t with
  | none => .ok none
  | some t => ((Numeral.read t).mapError fun fault => .invalid (.numeral fault)).map some

def whenAny {α : Type} (given : List Bool) (made : Except Failure α) : Except Failure (Option α) :=
  if given.any (· == true) then made.map some else .ok none

/-- The configuration that the variables under a prefix give. All numbers are read before any
section is made. -/
def Config.load (s : Surroundings) (lead : Text) : Except Failure Config := do
  let found := overrides s.environment lead
  let dataDir := (found.get? "paths.data_dir").map s.host.path
  let logDir := (found.get? "paths.log_dir").map s.host.path
  let chunkSize ← number? (found.get? "crypto.chunk_size")
  let dataShards ← number? (found.get? "erasure.data_shards")
  let parityShards ← number? (found.get? "erasure.parity_shards")
  let level := (found.get? "logging.level").map Text.upper
  let toConsole := (found.get? "logging.enable_console").map saysYes
  let toFile := (found.get? "logging.enable_file").map saysYes
  let asJson := (found.get? "logging.enable_json").map saysYes
  let maxWorkers ← number? (found.get? "performance.max_workers")
  let paths ← whenAny [dataDir.isSome, logDir.isSome] (s.pathSection dataDir logDir)
  let crypto ← whenAny [chunkSize.isSome]
    (CryptoSection.of (chunkSize.getD CryptoSection.defaultChunkSize) defaultKeyInfo)
  let erasure ← whenAny [dataShards.isSome, parityShards.isSome]
    (ErasureSection.of (dataShards.getD 10) (parityShards.getD 4))
  let log ← whenAny [level.isSome, toConsole.isSome, toFile.isSome, asJson.isSome]
    (LogSection.of (level.getD "INFO") 10485760 5 (toConsole.getD true) (toFile.getD false)
      (asJson.getD false))
  let work ← whenAny [maxWorkers.isSome] (WorkSection.of (maxWorkers.getD 1))
  ofSections s paths crypto erasure log work

end ShardVault
