import ShardVault.Catalogue.Status
import ShardVault.Text.Numeral
import ShardVault.Text.Quoted

namespace ShardVault

inductive FieldType
  | text
  | int
  | list
  deriving DecidableEq, Repr

def FieldType.name : FieldType → Text
  | text => "str"
  | int => "int"
  | list => "list"

inductive FieldFault
  | missing (key : Text)
  | wrongType (key : Text) (expected : FieldType)
  deriving DecidableEq, Repr

def FieldFault.message : FieldFault → Text
  | missing key => "Missing field: " ++ key
  | wrongType key expected => "Field " ++ key ++ " must be of type " ++ expected.name

/-- What is wrong with the framing of a sealed block. -/
inductive BlockFault
  | shortLength (offset size : Nat)
  | truncatedNonce
  | truncatedTag
  deriving DecidableEq, Repr

def BlockFault.message : BlockFault → Text
  | shortLength offset size =>
    "unpack_from requires a buffer of at least " ++ Text.ofNat (offset + 4) ++
      " bytes for unpacking 4 bytes at offset " ++ Text.ofNat offset ++
      " (actual buffer size is " ++ Text.ofNat size ++ ")"
  | truncatedNonce => "truncated nonce"
  | truncatedTag => "truncated tag"

/-- What is wrong with a metadata or index record. -/
inductive RecordFault
  | notJson
  | notObject
  | field (fault : FieldFault)
  | version (found : Int)
  | shardIdsNotText
  | totalMismatch
  | countsNotPositive
  | sumMismatch
  | timestamp (found : Text)
  | status (found : Text)
  deriving DecidableEq, Repr

def RecordFault.message : RecordFault → Text
  | notJson => "Record is not valid JSON"
  | notObject => "Record must be a JSON object"
  | field fault => fault.message
  | version found => "Unsupported metadata version: " ++ Text.ofInt found
  | shardIdsNotText => "shardIds must be a list of strings"
  | totalMismatch => "totalShards does not match shardIds"
  | countsNotPositive => "dataShards and parityShards must be positive"
  | sumMismatch => "dataShards + parityShards does not match totalShards"
  | timestamp found => "Invalid timestamp: " ++ found.quoted
  | status found => "Unknown status: " ++ found.quoted

inductive ContainerFault
  | tooShort
  | badMagic
  | version (found : Nat)
  | truncatedHeader
  | notJson
  | notObject
  | field (fault : FieldFault)
  | timestamp (found : Text)
  | sizes
  | entryNotObject (position : Nat)
  | outOfOrder (position : Nat)
  | overrun (index : Nat)
  | block (fault : BlockFault)
  | trailing
  deriving DecidableEq, Repr

def ContainerFault.message : ContainerFault → Text
  | tooShort => "Data too short for container header"
  | badMagic => "Invalid container format (bad magic bytes)"
  | version found => "Unsupported container format version: " ++ Text.ofNat found
  | truncatedHeader => "Data truncated (incomplete header)"
  | notJson => "Container header is not valid JSON"
  | notObject => "Container header must be an object"
  | field fault => fault.message
  | timestamp found => "Invalid timestamp: " ++ found.quoted
  | sizes => "Invalid size fields in container header"
  | entryNotObject position =>
    "Chunk table entry " ++ Text.ofNat position ++ " must be an object"
  | outOfOrder position => "Chunk table out of order at position " ++ Text.ofNat position
  | overrun index => "Chunk " ++ Text.ofNat index ++ " overruns container data"
  | block fault => "Malformed encrypted block: " ++ fault.message
  | trailing => "Trailing data after last chunk"

/-- What is wrong with the bytes of a shard record. -/
inductive ShardFault
  | tooShort
  | badMagic
  | version (found : Nat)
  | flags (found : Nat)
  | truncated
  | notText
  | misplaced (key : Text)
  deriving DecidableEq, Repr

def ShardFault.message : ShardFault → Text
  | tooShort => "Data too short for shard header"
  | badMagic => "Invalid shard format (bad magic bytes)"
  | version found => "Unsupported shard format version: " ++ Text.ofNat found
  | flags found =>
    "Unknown shard flags: 0x" ++ (Nat.toDigits 16 found).map CodePoint.ofChar
  | truncated => "Data truncated (incomplete shard header)"
  | notText => "Shard header is not valid text"
  | misplaced key => "Shard record stored under wrong key: " ++ key

/-- Which comparison of a hash, a size or an owner failed. -/
inductive IntegrityFault
  | chunkMoved (index : Int) (position : Nat)
  | rootMismatch
  | chunkHash (index : Int)
  | chunkUncovered (index : Int)
  | fileSize
  | fileHash
  | otherFile
  | recordedRoot
  | recordedHash
  deriving DecidableEq, Repr

def IntegrityFault.message : IntegrityFault → Text
  | chunkMoved index position =>
    "Chunk " ++ Text.ofInt index ++ " found at position " ++ Text.ofNat position
  | rootMismatch => "Merkle root mismatch"
  | chunkHash index => "Chunk " ++ Text.ofInt index ++ " integrity check failed"
  | chunkUncovered index => "Chunk " ++ Text.ofInt index ++ " not covered by Merkle root"
  | fileSize => "File size mismatch"
  | fileHash => "File integrity check failed"
  | otherFile => "Reconstructed container belongs to another file"
  | recordedRoot => "Merkle root does not match metadata"
  | recordedHash => "File integrity verification failed"

def IntegrityFault.chunk? : IntegrityFault → Option Int
  | chunkMoved index _ | chunkHash index | chunkUncovered index => some index
  | _ => none

inductive KeyFault
  | absent
  | wrongSize
  | notHex (source : Text)
  deriving DecidableEq, Repr

def KeyFault.message : KeyFault → Text
  | absent => "No master key available from identity provider"
  | wrongSize => "Master key must be exactly 32 bytes"
  | notHex source => source ++ " is not valid hex"

inductive SealFault
  | malformed
  | mismatch
  deriving DecidableEq, Repr

def SealFault.message : SealFault → Text
  | malformed => "Authentication failed: malformed nonce or tag"
  | mismatch => "Authentication failed: data tampered or wrong key"

/-- Why a text is refused as the value of a named field. -/
inductive ValidationFault
  | notText (field : Text)
  | empty (field : Text)
  | tooShort (field : Text) (least : Int)
  | tooLong (field : Text) (most : Int)
  | holdsNul (field : Text)
  deriving DecidableEq, Repr

def ValidationFault.message : ValidationFault → Text
  | notText field => field ++ " must be a string"
  | empty field => field ++ " cannot be empty"
  | tooShort field least => field ++ " must be at least " ++ Text.ofInt least ++ " characters"
  | tooLong field most => field ++ " must be at most " ++ Text.ofInt most ++ " characters"
  | holdsNul field => field ++ " contains invalid characters"

inductive ValueFault
  | masterKeySize
  | keySize
  | chunkSize
  | fileTooLarge (most : Nat)
  | emptyKeyInfo
  | shardCounts
  | dataShards
  | parityShards
  | maxWorkers
  | logLevel (found : Text)
  | relativePath (field path : Text)
  | tableName (found : Text)
  | zeroStep
  | numeral (fault : Numeral.Fault)
  | tooLongToWrite
  deriving DecidableEq

def ValueFault.quotedLimit : Nat := 200

def ValueFault.message : ValueFault → Text
  | masterKeySize => "Master key must be exactly 32 bytes"
  | keySize => "Key must be exactly 32 bytes"
  | chunkSize => "Chunk size must be positive"
  | fileTooLarge most => "File too large (max " ++ Text.ofNat most ++ " bytes)"
  | emptyKeyInfo => "Key derivation info cannot be empty"
  | shardCounts => "Shard counts must be positive"
  | dataShards => "data_shards must be positive"
  | parityShards => "parity_shards must be positive"
  | maxWorkers => "max_workers must be at least 1"
  | logLevel found => "Invalid log level: " ++ found
  | relativePath field path => field ++ " must be an absolute path: " ++ path
  | tableName found => "Invalid table name: " ++ found.quoted
  | zeroStep => "range() arg 3 must not be zero"
  | numeral (.malformed found) =>
    "invalid literal for int() with base 10: " ++ found.quoted.take quotedLimit
  | numeral (.tooManyDigits count) =>
    "Exceeds the limit (4300 digits) for integer string conversion: value has " ++
      Text.ofNat count ++ " digits; use sys.set_int_max_str_digits() to increase the limit"
  | tooLongToWrite =>
    "Exceeds the limit (4300 digits) for integer string conversion; " ++
      "use sys.set_int_max_str_digits() to increase the limit"

inductive RangeFault
  | leaf (index : Int) (count : Nat)
  | chunk (index : Int)
  deriving DecidableEq, Repr

def RangeFault.message : RangeFault → Text
  | leaf index count =>
    "Leaf index " ++ Text.ofInt index ++ " out of range for " ++ Text.ofNat count ++ " leaves"
  | chunk index => "Chunk index " ++ Text.ofInt index ++ " out of range"

inductive OverflowFault
  | ratio
  | date
  | paritySlice
  | draw
  deriving DecidableEq, Repr

def OverflowFault.message : OverflowFault → Text
  | ratio => "integer division result too large for a float"
  | date => "date value out of range"
  | paritySlice => "int too big to convert"
  | draw => "Python int too large to convert to C int"

/-- The families of failures that callers are expected to handle. -/
inductive Family
  | storage
  | keyUnavailable
  | authentication
  | integrity
  | notEnoughShards
  | metadataNotFound
  | corruptMetadata
  | corruptShard
  | corruptContainer
  | fileNotReady
  deriving DecidableEq, Repr

def Family.all : List Family :=
  [storage, keyUnavailable, authentication, integrity, notEnoughShards, metadataNotFound,
    corruptMetadata, corruptShard, corruptContainer, fileNotReady]

/-- A broken container is a special case of a broken shard; all else belongs to storage at once. -/
def Family.parent? : Family → Option Family
  | storage => none
  | corruptContainer => some corruptShard
  | _ => some storage

def Family.name : Family → Text
  | storage => "LibreDriveError"
  | keyUnavailable => "KeyUnavailable"
  | authentication => "AuthenticationFailure"
  | integrity => "IntegrityViolation"
  | notEnoughShards => "NotEnoughShards"
  | metadataNotFound => "MetadataNotFound"
  | corruptMetadata => "CorruptMetadata"
  | corruptShard => "CorruptShard"
  | corruptContainer => "CorruptContainer"
  | fileNotReady => "FileNotReady"

def Family.ofName? (name : Text) : Option Family :=
  all.find? fun family => family.name == name

/-- The families that a failure of this one belongs to, the narrowest first. -/
def Family.lineage : Family → List Family
  | storage => [storage]
  | corruptContainer => [corruptContainer, corruptShard, storage]
  | family => [family, storage]

inductive Failure
  | keyUnavailable (fault : KeyFault)
  | authentication (fault : SealFault)
  | integrity (fault : IntegrityFault)
  | notEnoughShards (available required : Int)
  | metadataNotFound (fileId : Text)
  | corruptMetadata (fault : RecordFault)
  | corruptShard (fault : ShardFault)
  | corruptContainer (fault : ContainerFault)
  | fileNotReady (fileId : Text) (status : FileStatus)
  /-- A failure of a family, reported by a caller in its own words. -/
  | reported (family : Family) (text : Text)
  | validation (fault : ValidationFault)
  | invalid (fault : ValueFault)
  | outOfRange (fault : RangeFault)
  | overflow (fault : OverflowFault)
  | unencodable
  | tooDeep
  | unpackable
  /-- Times with and without an offset cannot be ordered. -/
  | unorderedTimes
  | illegalMove (source target : FileStatus)
  | noHome
  | database
  | storeFull
  /-- A failure outside the families, reported by a caller, with its wording if that is told. -/
  | foreign (name : Text) (text : Option Text)
  deriving DecidableEq

namespace Failure

def family? : Failure → Option Family
  | keyUnavailable _ => some .keyUnavailable
  | authentication _ => some .authentication
  | integrity _ => some .integrity
  | notEnoughShards _ _ => some .notEnoughShards
  | metadataNotFound _ => some .metadataNotFound
  | corruptMetadata _ => some .corruptMetadata
  | corruptShard _ => some .corruptShard
  | corruptContainer _ => some .corruptContainer
  | fileNotReady _ _ => some .fileNotReady
  | reported family _ => some family
  | _ => none

def chunk? : Failure → Option Int
  | integrity fault => fault.chunk?
  | _ => none

def isWordless : Failure → Bool
  | unencodable | tooDeep | unpackable | database | foreign _ none => true
  | _ => false

def shardsMissing (available required : Text) : Text :=
  "Not enough shards: have " ++ available ++ ", need " ++ required

def fileMissing (fileId : Text) : Text :=
  "File not found: " ++ fileId

/-- The wording of a failure; empty for those whose wording is left to the system. -/
def message : Failure → Text
  | keyUnavailable fault => fault.message
  | authentication fault => fault.message
  | integrity fault => fault.message
  | notEnoughShards available required =>
    shardsMissing (Text.ofInt available) (Text.ofInt required)
  | metadataNotFound fileId => fileMissing fileId
  | corruptMetadata fault => fault.message
  | corruptShard fault => fault.message
  | corruptContainer fault => fault.message
  | fileNotReady fileId status => "File " ++ fileId.short ++ " is " ++ status.name
  | reported _ text => text
  | validation fault => fault.message
  | invalid fault => fault.message
  | outOfRange fault => fault.message
  | overflow fault => fault.message
  | unorderedTimes => "can't compare offset-naive and offset-aware datetimes"
  | illegalMove source target =>
    "Illegal status transition " ++ source.name ++ " -> " ++ target.name
  | noHome => "Could not determine home directory."
  | storeFull => "disk full"
  | foreign _ text => text.getD []
  | unencodable | tooDeep | unpackable | database => []

end Failure

end ShardVault
