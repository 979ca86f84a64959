import TwinLedger.Data.Bytes

/-!
# RIPEMD-160

Two lines of five stages run over each block side by side, each stage with its own mixing
function, order of the sixteen message words and shifts; their results are added to the five
words of state crosswise.
-/

namespace TwinLedger.Ripemd

/-- Sixteen steps that share a mixing function and a constant. -/
structure Stage where
  mix : UInt32 → UInt32 → UInt32 → UInt32
  constant : UInt32
  /-- Which message word each step takes. -/
  order : List Nat
  /-- By how much each step rotates. -/
  shifts : List UInt32

/-- The five words of state. -/
structure Registers where
  a : UInt32
  b : UInt32
  c : UInt32
  d : UInt32
  e : UInt32

/-- Rotation to the left by less than 32 bits. -/
def rotate (w n : UInt32) : UInt32 := (w <<< n) ||| (w >>> (32 - n))

def parity (x y z : UInt32) : UInt32 := x ^^^ y ^^^ z

def choice (x y z : UInt32) : UInt32 := (x &&& y) ||| (~~~ x &&& z)

def orParity (x y z : UInt32) : UInt32 := (x ||| ~~~ y) ^^^ z

def lateChoice (x y z : UInt32) : UInt32 := (x &&& z) ||| (y &&& ~~~ z)

def parityOr (x y z : UInt32) : UInt32 := x ^^^ (y ||| ~~~ z)

/-- The stages of the left line. -/
def left : List Stage :=
  [⟨parity, 0x00000000, [0, 1, 2, 3, 4, 5, 6, 7, 8, 9, 10, 11, 12, 13, 14, 15],
    [11, 14, 15, 12, 5, 8, 7, 9, 11, 13, 14, 15, 6, 7, 9, 8]⟩,
   ⟨choice, 0x5a827999, [7, 4, 13, 1, 10, 6, 15, 3, 12, 0, 9, 5, 2, 14, 11, 8],
    [7, 6, 8, 13, 11, 9, 7, 15, 7, 12, 15, 9, 11, 7, 13, 12]⟩,
   ⟨orParity, 0x6ed9eba1, [3, 10, 14, 4, 9, 15, 8, 1, 2, 7, 0, 6, 13, 11, 5, 12],
    [11, 13, 6, 7, 14, 9, 13, 15, 14, 8, 13, 6, 5, 12, 7, 5]⟩,
   ⟨lateChoice, 0x8f1bbcdc, [1, 9, 11, 10, 0, 8, 12, 4, 13, 3, 7, 15, 14, 5, 6, 2],
    [11, 12, 14, 15, 14, 15, 9, 8, 9, 14, 5, 6, 8, 6, 5, 12]⟩,
   ⟨parityOr, 0xa953fd4e, [4, 0, 5, 9, 7, 12, 2, 10, 14, 1, 3, 8, 11, 6, 15, 13],
    [9, 15, 5, 11, 6, 8, 13, 12, 5, 12, 13, 14, 11, 8, 5, 6]⟩]

/-- The stages of the right line. -/
def right : List Stage :=
  [⟨parityOr, 0x50a28be6, [5, 14, 7, 0, 9, 2, 11, 4, 13, 6, 15, 8, 1, 10, 3, 12],
    [8, 9, 9, 11, 13, 15, 15, 5, 7, 7, 8, 11, 14, 14, 12, 6]⟩,
   ⟨lateChoice, 0x5c4dd124, [6, 11, 3, 7, 0, 13, 5, 10, 14, 15, 8, 12, 4, 9, 1, 2],
    [9, 13, 15, 7, 12, 8, 9, 11, 7, 7, 12, 7, 6, 15, 13, 11]⟩,
   ⟨orParity, 0x6d703ef3, [15, 5, 1, 3, 7, 14, 6, 9, 11, 8, 12, 2, 10, 0, 4, 13],
    [9, 7, 15, 11, 8, 6, 6, 14, 12, 13, 5, 14, 13, 13, 7, 5]⟩,
   ⟨choice, 0x7a6d76e9, [8, 6, 4, 1, 3, 11, 15, 0, 5, 12, 2, 13, 9, 7, 10, 14],
    [15, 5, 8, 11, 14, 14, 6, 14, 6, 9, 12, 9, 12, 5, 15, 8]⟩,
   ⟨parity, 0x00000000, [12, 15, 10, 4, 1, 5, 8, 7, 6, 2, 13, 14, 0, 3, 9, 11],
    [8, 5, 12, 9, 12, 5, 14, 6, 8, 13, 6, 5, 15, 13, 11, 11]⟩]

/-- One step with a word of the message and a shift. -/
def step (stage : Stage) (block : Array UInt32) (r : Registers) (place : Nat × UInt32) :
    Registers :=
  let sum := r.a + stage.mix r.b r.c r.d + block.getD place.1 0 + stage.constant
  ⟨r.e, rotate sum place.2 + r.e, r.b, rotate r.c 10, r.d⟩

/-- A whole line over one block. -/
def line (stages : List Stage) (block : Array UInt32) (r : Registers) : Registers :=
  stages.foldl (fun r s => (s.order.zip s.shifts).foldl (step s block) r) r

/-- Mixes a block of sixteen words into the state. -/
def compress (r : Registers) (block : Array UInt32) : Registers :=
  let l := line left block r
  let m := line right block r
  ⟨r.b + l.c + m.d, r.c + l.d + m.e, r.d + l.e + m.a, r.e + l.a + m.b, r.a + l.b + m.c⟩

/-- Words of four bytes each, the least significant byte first. -/
def words : Bytes → List UInt32
  | b0 :: b1 :: b2 :: b3 :: rest =>
    (b0.toUInt32 ||| b1.toUInt32 <<< 8 ||| b2.toUInt32 <<< 16 ||| b3.toUInt32 <<< 24) :: words rest
  | _ => []

/-- The bytes that fill a message of the given length up to whole blocks: a one bit, zeros, and
the length in bits. -/
def padding (length : Nat) : Bytes :=
  0x80 :: (List.replicate ((119 - length % 64) % 64) 0x00 ++ Bytes.littleEndian 8 (8 * length))

/-- Mixes in the given number of blocks of 64 bytes. -/
def absorbAll : Nat → Registers → Bytes → Registers
  | 0, r, _ => r
  | n + 1, r, bytes => absorbAll n (compress r (words (bytes.take 64)).toArray) (bytes.drop 64)

end TwinLedger.Ripemd

namespace TwinLedger

/-- The RIPEMD-160 digest, 20 bytes. -/
def ripemd160 (input : Bytes) : Bytes :=
  let padded := input ++ Ripemd.padding input.length
  let r := Ripemd.absorbAll (padded.length / 64)
    ⟨0x67452301, 0xefcdab89, 0x98badcfe, 0x10325476, 0xc3d2e1f0⟩ padded
  [r.a, r.b, r.c, r.d, r.e].flatMap fun w => Bytes.littleEndian 4 w.toNat

end TwinLedger
