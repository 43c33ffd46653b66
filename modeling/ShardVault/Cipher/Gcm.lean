import ShardVault.Cipher.Aes

namespace ShardVault.Gcm

/-- An element of the field of 2¹²⁸ elements; the highest bit is the constant term. -/
structure Element where
  hi : UInt64
  lo : UInt64
  deriving DecidableEq

/-- Multiply by adding multiples of `v` by rising powers of x for the `n` leading bits of `x`, onto
`z`. -/
def mulBits : (n : Nat) → (xh xl zh zl vh vl : UInt64) → Element
  | 0, _, _, zh, zl, _, _ => ⟨zh, zl⟩
  | n + 1, xh, xl, zh, zl, vh, vl =>
    let set := xh >>> 63 == 1
    let carry := vl &&& 1 == 1
    let vh' := vh >>> 1
    mulBits n (xh <<< 1 ||| xl >>> 63) (xl <<< 1)
      (if set then zh ^^^ vh else zh) (if set then zl ^^^ vl else zl)
      (if carry then vh' ^^^ 0xE100000000000000 else vh') (vl >>> 1 ||| vh <<< 63)

def Element.mul (x v : Element) : Element :=
  mulBits 128 x.hi x.lo 0 0 v.hi v.lo

def Element.add (x y : Element) : Element :=
  ⟨x.hi ^^^ y.hi, x.lo ^^^ y.lo⟩

/-- The element that sixteen bytes spell; missing bytes count as zeros at the end. -/
def Element.ofBytes (bs : Bytes) : Element :=
  let bs := bs.padTo 16
  ⟨UInt64.ofNat (Bytes.toNat (bs.take 8)), UInt64.ofNat (Bytes.toNat ((bs.drop 8).take 8))⟩

def Element.toBytes (x : Element) : Bytes :=
  Bytes.ofNat 8 x.hi.toNat ++ Bytes.ofNat 8 x.lo.toNat

def elements (bs : Bytes) : List Element :=
  (chunks 16 bs).map Element.ofBytes

/-- The polynomial hash of associated and hidden bytes at a point of the field. -/
def hash (point : Element) (associated hidden : Bytes) : Element :=
  let sizes : Element :=
    ⟨UInt64.ofNat (8 * associated.length), UInt64.ofNat (8 * hidden.length)⟩
  (elements associated ++ elements hidden ++ [sizes]).foldl (fun y x => (y.add x).mul point)
    ⟨0, 0⟩

def mask (keys : List Aes.Block) (nonce : Bytes) (counter : Nat) : Bytes :=
  (Aes.encrypt keys (Aes.Block.ofBytes (nonce ++ Bytes.ofNat 4 counter))).toBytes

def stream (keys : List Aes.Block) (nonce : Bytes) (size : Nat) : Bytes :=
  ((List.range ((size + 15) / 16)).flatMap fun i => mask keys nonce (i + 2)).take size

def hide (keys : List Aes.Block) (nonce bs : Bytes) : Bytes :=
  Bytes.xor bs (stream keys nonce bs.length)

def tag (keys : List Aes.Block) (nonce associated hidden : Bytes) : Bytes :=
  let point := Element.ofBytes (Aes.encrypt keys (Aes.Block.ofBytes [])).toBytes
  Bytes.xor (hash point associated hidden).toBytes (mask keys nonce 1)

def encrypt (key nonce associated text : Bytes) : Bytes × Bytes :=
  let keys := Aes.expand key
  let hidden := hide keys nonce text
  (hidden, tag keys nonce associated hidden)

def decrypt? (key nonce associated hidden tag : Bytes) : Option Bytes :=
  let keys := Aes.expand key
  if tag = Gcm.tag keys nonce associated hidden then some (hide keys nonce hidden) else none

@[simp] theorem length_mask (keys : List Aes.Block) (nonce : Bytes) (counter : Nat) :
    (mask keys nonce counter).length = 16 := by
  simp [mask]

@[simp] theorem length_stream (keys : List Aes.Block) (nonce : Bytes) (size : Nat) :
    (stream keys nonce size).length = size := by
  simp [stream, List.length_flatMap, List.map_const', List.sum_replicate_nat]; omega

@[simp] theorem length_hide (keys : List Aes.Block) (nonce bs : Bytes) :
    (hide keys nonce bs).length = bs.length := by
  simp [hide]

theorem hide_hide (keys : List Aes.Block) (nonce bs : Bytes) :
    hide keys nonce (hide keys nonce bs) = bs := by
  rw [hide, length_hide, hide]
  exact Bytes.xor_xor_cancel bs _ (by simp)

@[simp] theorem length_tag (keys : List Aes.Block) (nonce associated hidden : Bytes) :
    (tag keys nonce associated hidden).length = 16 := by
  simp [tag, Element.toBytes]

theorem decrypt?_encrypt (key nonce associated text : Bytes) :
    decrypt? key nonce associated (encrypt key nonce associated text).1
      (encrypt key nonce associated text).2 = some text := by
  simp [decrypt?, encrypt, hide_hide]

end ShardVault.Gcm
