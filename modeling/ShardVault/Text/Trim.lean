import ShardVault.Text.Property

namespace ShardVault.Text

def trimBy (drop : CodePoint → Bool) (t : Text) : Text :=
  ((t.dropWhile drop).reverse.dropWhile drop).reverse

def trim (t : Text) : Text :=
  t.trimBy CodePoint.isBlank

end ShardVault.Text
