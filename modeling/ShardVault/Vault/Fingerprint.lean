import ShardVault.Vault.Basic

namespace ShardVault

def Bytes.sized (bs : Bytes) : Bytes :=
  Bytes.ofNat 4 bs.length ++ bs

/-- The entries of a store in rising order of their keys, after their count in four bytes. -/
def Store.dump (s : Store) : Bytes :=
  Bytes.ofNat 4 s.entries.length ++ (Json.sortFields s.entries).flatMap fun (key, value) =>
    Bytes.sized (Utf8.encodeAll key) ++ Bytes.sized value

def Vault.stores (v : Vault) : List Store :=
  [v.shards, v.metadata, v.index.getD .empty]

def Vault.fingerprint (v : Vault) : Text :=
  Sha256.hex (v.stores.flatMap Store.dump)

end ShardVault
