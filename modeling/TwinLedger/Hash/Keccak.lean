import TwinLedger.Data.Bytes

/-!
# Keccak-256

The sponge with a state of five rows of five 64-bit lanes, a rate of 136 bytes and the padding
that puts a one bit behind the message and another at the end of the last block. Every hash that
names something in the ledger is this one.
-/

namespace TwinLedger.Keccak

/-- Five lanes with the same vertical coordinate. -/
structure Row where
  x0 : UInt64
  x1 : UInt64
  x2 : UInt64
  x3 : UInt64
  x4 : UInt64

/-- Twenty-five lanes. -/
structure Sponge where
  y0 : Row
  y1 : Row
  y2 : Row
  y3 : Row
  y4 : Row

def Row.zero : Row := ⟨0, 0, 0, 0, 0⟩

def Sponge.zero : Sponge := ⟨.zero, .zero, .zero, .zero, .zero⟩

def Row.xor (a b : Row) : Row :=
  ⟨a.x0 ^^^ b.x0, a.x1 ^^^ b.x1, a.x2 ^^^ b.x2, a.x3 ^^^ b.x3, a.x4 ^^^ b.x4⟩

/-- Rotation to the left by less than 64 bits. -/
def rotate (lane : UInt64) (n : UInt64) : UInt64 := (lane <<< n) ||| (lane >>> (64 - n))

/-- Adds to every lane the parity of two columns beside it. -/
def theta (s : Sponge) : Sponge :=
  let c := s.y0.xor (s.y1.xor (s.y2.xor (s.y3.xor s.y4)))
  let d : Row := ⟨c.x4 ^^^ rotate c.x1 1, c.x0 ^^^ rotate c.x2 1, c.x1 ^^^ rotate c.x3 1,
    c.x2 ^^^ rotate c.x4 1, c.x3 ^^^ rotate c.x0 1⟩
  ⟨s.y0.xor d, s.y1.xor d, s.y2.xor d, s.y3.xor d, s.y4.xor d⟩

/-- Rotates the lanes, each by its own amount, and moves them to their new places. -/
def rhoPi (s : Sponge) : Sponge where
  y0 := ⟨s.y0.x0, rotate s.y1.x1 44, rotate s.y2.x2 43, rotate s.y3.x3 21, rotate s.y4.x4 14⟩
  y1 := ⟨rotate s.y0.x3 28, rotate s.y1.x4 20, rotate s.y2.x0 3, rotate s.y3.x1 45,
    rotate s.y4.x2 61⟩
  y2 := ⟨rotate s.y0.x1 1, rotate s.y1.x2 6, rotate s.y2.x3 25, rotate s.y3.x4 8,
    rotate s.y4.x0 18⟩
  y3 := ⟨rotate s.y0.x4 27, rotate s.y1.x0 36, rotate s.y2.x1 10, rotate s.y3.x2 15,
    rotate s.y4.x3 56⟩
  y4 := ⟨rotate s.y0.x2 62, rotate s.y1.x3 55, rotate s.y2.x4 39, rotate s.y3.x0 41,
    rotate s.y4.x1 2⟩

/-- Adds to every lane of a row a product of the two lanes behind it. -/
def Row.chi (r : Row) : Row where
  x0 := r.x0 ^^^ (~~~ r.x1 &&& r.x2)
  x1 := r.x1 ^^^ (~~~ r.x2 &&& r.x3)
  x2 := r.x2 ^^^ (~~~ r.x3 &&& r.x4)
  x3 := r.x3 ^^^ (~~~ r.x4 &&& r.x0)
  x4 := r.x4 ^^^ (~~~ r.x0 &&& r.x1)

/-- One round; the constant tells the rounds apart. -/
def round (s : Sponge) (constant : UInt64) : Sponge :=
  let t := rhoPi (theta s)
  let r := t.y0.chi
  ⟨{ r with x0 := r.x0 ^^^ constant }, t.y1.chi, t.y2.chi, t.y3.chi, t.y4.chi⟩

/-- The constants of the twenty-four rounds. -/
def constants : List UInt64 :=
  [0x0000000000000001, 0x0000000000008082, 0x800000000000808a, 0x8000000080008000,
   0x000000000000808b, 0x0000000080000001, 0x8000000080008081, 0x8000000000008009,
   0x000000000000008a, 0x0000000000000088, 0x0000000080008009, 0x000000008000000a,
   0x000000008000808b, 0x800000000000008b, 0x8000000000008089, 0x8000000000008003,
   0x8000000000008002, 0x8000000000000080, 0x000000000000800a, 0x800000008000000a,
   0x8000000080008081, 0x8000000000008080, 0x0000000080000001, 0x8000000080008008]

/-- The permutation of the sponge. -/
def permute (s : Sponge) : Sponge := constants.foldl round s

/-- Bytes taken in or given out at a time. -/
def rate : Nat := 136

/-- Lanes from eight bytes each, the least significant byte first. -/
def lanes : Bytes → List UInt64
  | b0 :: b1 :: b2 :: b3 :: b4 :: b5 :: b6 :: b7 :: rest =>
    (b0.toUInt64 ||| b1.toUInt64 <<< 8 ||| b2.toUInt64 <<< 16 ||| b3.toUInt64 <<< 24 |||
      b4.toUInt64 <<< 32 ||| b5.toUInt64 <<< 40 ||| b6.toUInt64 <<< 48 ||| b7.toUInt64 <<< 56) ::
      lanes rest
  | _ => []

/-- Mixes a block of 136 bytes, which are seventeen lanes, into the sponge. -/
def absorb (s : Sponge) (block : Bytes) : Sponge :=
  match lanes block with
  | [a0, a1, a2, a3, a4, a5, a6, a7, a8, a9, a10, a11, a12, a13, a14, a15, a16] =>
    permute ⟨s.y0.xor ⟨a0, a1, a2, a3, a4⟩, s.y1.xor ⟨a5, a6, a7, a8, a9⟩,
      s.y2.xor ⟨a10, a11, a12, a13, a14⟩, s.y3.xor ⟨a15, a16, 0, 0, 0⟩, s.y4⟩
  | _ => s

/-- The bytes that fill a message of the given length up to whole blocks. -/
def padding (length : Nat) : Bytes :=
  match rate - length % rate with
  | 0 => []
  | 1 => [0x81]
  | n + 2 => 0x01 :: (List.replicate n 0x00 ++ [0x80])

/-- Takes in the given number of blocks. -/
def absorbAll : Nat → Sponge → Bytes → Sponge
  | 0, s, _ => s
  | n + 1, s, bytes => absorbAll n (absorb s (bytes.take rate)) (bytes.drop rate)

end TwinLedger.Keccak

namespace TwinLedger

/-- The Keccak-256 digest of a string of bytes. -/
def keccak256 (input : Bytes) : Hash :=
  let padded := input ++ Keccak.padding input.length
  let s := Keccak.absorbAll (padded.length / Keccak.rate) .zero padded
  .ofBytes <| [s.y0.x0, s.y0.x1, s.y0.x2, s.y0.x3].flatMap fun lane =>
    Bytes.littleEndian 8 lane.toNat

end TwinLedger
