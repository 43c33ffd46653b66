import ShardVault.Bytes.Basic

namespace ShardVault.Twister

def size : Nat := 624

def fold (w : UInt32) : UInt32 :=
  w ^^^ w >>> 30

def base : Array UInt32 :=
  (List.range (size - 1)).foldl
    (fun words i => words.push (1812433253 * fold (words.getD i 0) + UInt32.ofNat (i + 1)))
    #[19650218]

def key (seed : Nat) : List UInt32 :=
  (List.range (seed.log2 / 32 + 1)).map fun i => UInt32.ofNat (seed >>> (32 * i))

/-- Words that are being changed one after another, and the place of the next change. -/
structure Seeding where
  words : Array UInt32
  place : Nat

/-- Change a word by the one before it. The last word also takes the place of the first one, and
the changes go on after that. -/
def Seeding.step (change : (own before : UInt32) → (place : Nat) → UInt32) (s : Seeding) :
    Seeding :=
  let word := change (s.words.getD s.place 0) (s.words.getD (s.place - 1) 0) s.place
  let words := s.words.setIfInBounds s.place word
  if s.place + 1 < size then ⟨words, s.place + 1⟩ else ⟨words.setIfInBounds 0 word, 1⟩

/-- One change after another; a change may depend on how many there were before it. -/
def Seeding.steps (change : (turn : Nat) → (own before : UInt32) → (place : Nat) → UInt32)
    (n : Nat) (s : Seeding) : Seeding :=
  (List.range n).foldl (fun s turn => s.step (change turn)) s

/-- Take in a word of a key with its number, the words one after another and over again. -/
def takeIn (key : List UInt32) (turn : Nat) (own before : UInt32) (_ : Nat) : UInt32 :=
  let number := turn % key.length
  (own ^^^ fold before * 1664525) + key.getD number 0 + UInt32.ofNat number

/-- The first words for a seed: two rounds of changes, the first of which takes in the seed and lasts
until all its words were taken. -/
def seeded (seed : Nat) : Array UInt32 :=
  let words := key seed
  let first := Seeding.steps (takeIn words) (max size words.length) ⟨base, 1⟩
  let second := Seeding.steps
    (fun _ own before place => (own ^^^ fold before * 1566083941) - UInt32.ofNat place) (size - 1)
    first
  second.words.setIfInBounds 0 0x80000000

def nextWord (words : Array UInt32) : UInt32 :=
  let n := words.size
  let y := (words.getD (n - 624) 0 &&& 0x80000000) ||| (words.getD (n - 623) 0 &&& 0x7FFFFFFF)
  words.getD (n - 227) 0 ^^^ y >>> 1 ^^^ (if y &&& 1 = 1 then 0x9908B0DF else 0)

def extend : (n : Nat) → Array UInt32 → Array UInt32
  | 0, words => words
  | n + 1, words => extend n (words.push (nextWord words))

def temper (w : UInt32) : UInt32 :=
  let w := w ^^^ w >>> 11
  let w := w ^^^ (w <<< 7 &&& 0x9D2C5680)
  let w := w ^^^ (w <<< 15 &&& 0xEFC60000)
  w ^^^ w >>> 18

def lowBytes (count : Nat) (w : UInt32) : Bytes :=
  (Bytes.ofNat count w.toNat).reverse

/-- The first bytes of the stream of a seed. The last word gives its top bytes if not all four are
needed. -/
def stream (seed count : Nat) : Bytes :=
  let words := ((extend ((count + 3) / 4) (seeded seed)).toList.drop size).map temper
  let whole := (words.take (count / 4)).flatMap (lowBytes 4)
  let left := count % 4
  whole ++ lowBytes left ((words.getD (count / 4) 0) >>> UInt32.ofNat (32 - 8 * left))

@[simp] theorem length_extend (n : Nat) (words : Array UInt32) :
    (extend n words).size = words.size + n := by
  induction n generalizing words with
  | zero => rfl
  | succ n ih => simp [extend, ih]; omega

end ShardVault.Twister
