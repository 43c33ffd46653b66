import ShardVault.Digest.Sha256
import ShardVault.Text.Encoded
import ShardVault.Time.DateTime

namespace ShardVault

/-- The id of a file with a content and a name, uploaded at a point in time. -/
def fileId (data : Bytes) (name : Text) (time : DateTime) : Except Failure Text := do
  let nameBytes ← name.encode
  let timeBytes ← time.shown.encode
  .ok (Sha256.hex (data ++ nameBytes ++ timeBytes))

end ShardVault
