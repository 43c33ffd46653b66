import ShardVault.Bytes.Basic
import ShardVault.Text.Quoted

namespace ShardVault.Bytes

def quoteByte (mark : Char) (b : UInt8) : Text :=
  match Text.shortEscape? mark b.toNat with
  | some escape => escape
  | none =>
    if 0x20 ≤ b && b < 0x7F then [CodePoint.ofNat b.toNat]
    else "\\x" ++ Text.hexPadded 2 b.toNat

def quoted (bs : Bytes) : Text :=
  let mark := Text.quoteMark fun c => bs.any fun b => b.toNat = c.toNat
  "b" ++ [CodePoint.ofChar mark] ++ bs.flatMap (quoteByte mark) ++ [CodePoint.ofChar mark]

end ShardVault.Bytes
