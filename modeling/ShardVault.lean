import ShardVault.Failure
import ShardVault.Report
import ShardVault.Bytes.Hex
import ShardVault.Bytes.Quoted
import ShardVault.Text.Utf8
import ShardVault.Text.Letter
import ShardVault.Digest.Hkdf
import ShardVault.Digest.Merkle
import ShardVault.Json.Reader
import ShardVault.Json.Writer
import ShardVault.Text.Encoding
import ShardVault.Time.Reader
import ShardVault.Key.Source
import ShardVault.Catalogue.Name
import ShardVault.Json.Display
import ShardVault.Outcome
import ShardVault.Container.Codec
import ShardVault.Container.Encrypt
import ShardVault.Container.Decrypt
import ShardVault.Container.Workers
import ShardVault.Shard.Layout
import ShardVault.Catalogue.Metadata
import ShardVault.Catalogue.IndexRecord
import ShardVault.Catalogue.FileId
import ShardVault.Store.Index
import ShardVault.Store.Lock
import ShardVault.Store.Request
import ShardVault.Config.Environment
import ShardVault.Config.Directories
import ShardVault.Vault.Upload
import ShardVault.Vault.Download
import ShardVault.Vault.Delete
import ShardVault.Vault.Audit
import ShardVault.Vault.Listing
import ShardVault.Vault.Fingerprint
import ShardVault.Vault.Container
import ShardVault.Log.Redaction
import ShardVault.Log.Template
import ShardVault.Log.Logger
import ShardVault.Proofs.Vault.Ledger
import ShardVault.Proofs.Vault.Intact
import ShardVault.Proofs.Vault.Tampering
import ShardVault.Proofs.Shard.Slots
import ShardVault.Proofs.Vault.Audit
import ShardVault.Proofs.Vault.Interruption
import ShardVault.Proofs.Vault.Survival
import ShardVault.Proofs.Vault.Catalogue
import ShardVault.Proofs.Vault.Removal
import ShardVault.Proofs.Container.Reading
import ShardVault.Proofs.Digest.Paths
import ShardVault.Proofs.Container.Recovery
import ShardVault.Proofs.Container.Tampering
import ShardVault.Proofs.Container.Binding
import ShardVault.Proofs.Shard.Gathering
import ShardVault.Proofs.Shard.Stripes
import ShardVault.Proofs.Vault.Independence
import ShardVault.Proofs.Json.Limits
import ShardVault.Proofs.Vault.Refusals
import ShardVault.Proofs.Container.Failures
import ShardVault.Proofs.Key.Derivation
import ShardVault.Proofs.Catalogue.Records
import ShardVault.Proofs.Vault.Listings
import ShardVault.Proofs.Shard.Reconstruction
import ShardVault.Proofs.Shard.Record
import ShardVault.Proofs.Container.Framing
import ShardVault.Proofs.Container.Sizes
import ShardVault.Proofs.Vault.Sizes
import ShardVault.Proofs.Log.Places
import ShardVault.Proofs.Log.Redaction
import ShardVault.Proofs.Log.Runs
import ShardVault.Proofs.Store.Requests
import ShardVault.Proofs.Store.Isolation
import ShardVault.Proofs.Time.Stamps
import ShardVault.Proofs.Json.Ascii
import ShardVault.Proofs.Log.Lines
import ShardVault.Proofs.Store.Locks
import ShardVault.Proofs.Key.Environment
import ShardVault.Proofs.Config.Loading
