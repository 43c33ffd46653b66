import ShardVault.Bytes.Basic

namespace ShardVault.Aes

def double (b : UInt8) : UInt8 :=
  if b < 0x80 then b <<< 1 else b <<< 1 ^^^ 0x1B

/-- Multiply field elements by adding doubles of the first for the `n` low bits of the second. -/
def mulBits : (n : Nat) → UInt8 → UInt8 → UInt8
  | 0, _, _ => 0
  | n + 1, a, b => (if b &&& 1 = 1 then a else 0) ^^^ mulBits n (double a) (b >>> 1)

def mul (a b : UInt8) : UInt8 :=
  mulBits 8 a b

def inverse (a : UInt8) : UInt8 :=
  let a2 := mul a a
  let a4 := mul a2 a2
  let a8 := mul a4 a4
  let a16 := mul a8 a8
  let a32 := mul a16 a16
  let a64 := mul a32 a32
  mul (mul (mul a2 a4) (mul a8 a16)) (mul (mul a32 a64) (mul a64 a64))

def turn (n b : UInt8) : UInt8 :=
  b <<< n ||| b >>> (8 - n)

def substitute (b : UInt8) : UInt8 :=
  let i := inverse b
  i ^^^ turn 1 i ^^^ turn 2 i ^^^ turn 3 i ^^^ turn 4 i ^^^ 0x63

def substitutes : Array UInt8 :=
  ((List.range 256).map fun n => substitute (UInt8.ofNat n)).toArray

def sub (b : UInt8) : UInt8 :=
  substitutes.getD b.toNat 0

structure Column where
  a : UInt8
  b : UInt8
  c : UInt8
  d : UInt8
  deriving DecidableEq

namespace Column

def xor (x y : Column) : Column :=
  ⟨x.a ^^^ y.a, x.b ^^^ y.b, x.c ^^^ y.c, x.d ^^^ y.d⟩

def sub (x : Column) : Column :=
  ⟨Aes.sub x.a, Aes.sub x.b, Aes.sub x.c, Aes.sub x.d⟩

def turn (x : Column) : Column :=
  ⟨x.b, x.c, x.d, x.a⟩

/-- The product with the matrix whose first row is 2, 3, 1, 1 and whose rows are turns of it. -/
def mix (x : Column) : Column :=
  let all := x.a ^^^ x.b ^^^ x.c ^^^ x.d
  ⟨x.a ^^^ all ^^^ double (x.a ^^^ x.b), x.b ^^^ all ^^^ double (x.b ^^^ x.c),
    x.c ^^^ all ^^^ double (x.c ^^^ x.d), x.d ^^^ all ^^^ double (x.d ^^^ x.a)⟩

def toBytes (x : Column) : Bytes :=
  [x.a, x.b, x.c, x.d]

end Column

structure Block where
  w : Column
  x : Column
  y : Column
  z : Column
  deriving DecidableEq

namespace Block

def xor (p q : Block) : Block :=
  ⟨p.w.xor q.w, p.x.xor q.x, p.y.xor q.y, p.z.xor q.z⟩

def sub (p : Block) : Block :=
  ⟨p.w.sub, p.x.sub, p.y.sub, p.z.sub⟩

def shiftRows (p : Block) : Block :=
  ⟨⟨p.w.a, p.x.b, p.y.c, p.z.d⟩, ⟨p.x.a, p.y.b, p.z.c, p.w.d⟩,
    ⟨p.y.a, p.z.b, p.w.c, p.x.d⟩, ⟨p.z.a, p.w.b, p.x.c, p.y.d⟩⟩

def mix (p : Block) : Block :=
  ⟨p.w.mix, p.x.mix, p.y.mix, p.z.mix⟩

def chain (first : Column) (p : Block) : Block :=
  let w := p.w.xor first
  let x := p.x.xor w
  let y := p.y.xor x
  ⟨w, x, y, p.z.xor y⟩

def toBytes (p : Block) : Bytes :=
  p.w.toBytes ++ p.x.toBytes ++ p.y.toBytes ++ p.z.toBytes

/-- The block that the first sixteen bytes fill, zeros standing for bytes that are missing. -/
def ofBytes (bs : Bytes) : Block :=
  match bs.padTo 16 with
  | a :: b :: c :: d :: e :: f :: g :: h :: i :: j :: k :: l :: m :: n :: o :: p :: _ =>
    ⟨⟨a, b, c, d⟩, ⟨e, f, g, h⟩, ⟨i, j, k, l⟩, ⟨m, n, o, p⟩⟩
  | _ => ⟨⟨0, 0, 0, 0⟩, ⟨0, 0, 0, 0⟩, ⟨0, 0, 0, 0⟩, ⟨0, 0, 0, 0⟩⟩

@[simp] theorem length_toBytes (p : Block) : p.toBytes.length = 16 := rfl

end Block

/-- The keys of the rounds, two blocks for every round constant and one more. -/
def roundKeys : (constants : List UInt8) → Block → Block → List Block
  | [], p, _ => [p]
  | r :: rest, p, q =>
    let p' := p.chain (q.z.turn.sub.xor ⟨r, 0, 0, 0⟩)
    let q' := q.chain p'.z.sub
    p :: q :: roundKeys rest p' q'

def expand (key : Bytes) : List Block :=
  roundKeys [1, 2, 4, 8, 16, 32, 64] (Block.ofBytes key) (Block.ofBytes (key.drop 16))

def rounds : List Block → Block → Block
  | [], p => p
  | [k], p => p.sub.shiftRows.xor k
  | k :: ks, p => rounds ks (p.sub.shiftRows.mix.xor k)

def encrypt (keys : List Block) (p : Block) : Block :=
  match keys with
  | [] => p
  | k :: ks => rounds ks (p.xor k)

end ShardVault.Aes
