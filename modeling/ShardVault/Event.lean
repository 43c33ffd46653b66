import ShardVault.Catalogue.Status

namespace ShardVault

inductive Weight
  | debug
  | info
  | warning
  | error
  deriving DecidableEq, Repr

def Weight.name : Weight → Text
  | debug => "DEBUG"
  | info => "INFO"
  | warning => "WARNING"
  | error => "ERROR"

inductive Event
  | encrypted (fileId : Text) (size chunks : Nat)
  | decrypted (fileId : Text) (chunks : Nat)
  | sharded (fileId : Text) (total data parity size : Nat)
  | foreignShard (slot : Nat)
  | damagedShard (slot : Nat)
  | stored (fileId : Text) (size shards : Nat)
  | retrieved (fileId : Text) (size : Nat)
  | uploadFailed (fileId : Text) (status : FileStatus) (written : Nat)
  | orphaned (fileId : Text) (slots : List Nat)
  | unreadable (fileId : Text)
  | deleted (fileId : Text) (removed : Nat)
  | degraded (fileId : Text) (valid checked : Nat) (recoverable : Bool)
  deriving DecidableEq, Repr

namespace Event

def weight : Event → Weight
  | encrypted .. | decrypted .. | sharded .. => .debug
  | stored .. | retrieved .. | deleted .. => .info
  | foreignShard .. | damagedShard .. | unreadable .. | degraded .. => .warning
  | uploadFailed .. | orphaned .. => .error

def source : Event → Text
  | encrypted .. => "libredrive.core.file_ops.encrypt"
  | decrypted .. => "libredrive.core.file_ops.decrypt"
  | sharded .. | foreignShard .. | damagedShard .. => "libredrive.storage.shards"
  | _ => "libredrive.storage.service"

def message : Event → Text
  | encrypted fileId size chunks =>
    "Encrypted file " ++ fileId.short ++ ": " ++ Text.ofNat size ++ " bytes in " ++
      Text.ofNat chunks ++ " chunks"
  | decrypted fileId chunks =>
    "Decrypted file " ++ fileId.short ++ ": " ++ Text.ofNat chunks ++ " chunks verified"
  | sharded fileId total data parity size =>
    "Created " ++ Text.ofNat total ++ " shards (" ++ Text.ofNat data ++ " data + " ++
      Text.ofNat parity ++ " parity, " ++ Text.ofNat size ++ " bytes each) for " ++ fileId.short
  | foreignShard slot => "Ignoring shard of another file in data slot " ++ Text.ofNat slot
  | damagedShard slot => "Data shard " ++ Text.ofNat slot ++ " failed hash check"
  | stored fileId size shards =>
    "Stored " ++ fileId.short ++ " (" ++ Text.ofNat size ++ " bytes, " ++ Text.ofNat shards ++
      " shards)"
  | retrieved fileId size =>
    "Retrieved " ++ fileId.short ++ " (" ++ Text.ofNat size ++ " bytes)"
  | uploadFailed fileId status written =>
    "Upload of " ++ fileId.short ++ " failed (status=" ++ status.name ++ ", " ++
      Text.ofNat written ++ " shards written)"
  | orphaned fileId slots =>
    "Orphaned shards of " ++ fileId.short ++ " at slots: " ++
      Text.join ", " (slots.map Text.ofNat)
  | unreadable fileId =>
    "Metadata for " ++ fileId.short ++ " unreadable; deleting by prefix"
  | deleted fileId removed =>
    "Deleted " ++ fileId.short ++ " (" ++ Text.ofNat removed ++ " shards removed)"
  | degraded fileId valid checked recoverable =>
    "Integrity check of " ++ fileId.short ++ ": " ++ Text.ofNat valid ++ "/" ++
      Text.ofNat checked ++ " shards valid, recoverable=" ++
      (if recoverable then "True" else "False" : Text)

end Event

end ShardVault
