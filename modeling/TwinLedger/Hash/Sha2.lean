import TwinLedger.Data.Bytes

/-!
# SHA-256 and SHA-512

Both are one construction over words of different size: the message is padded with a one bit,
zeros and its length in bits, cut into blocks of sixteen words, and each block is mixed into eight
words of state in as many rounds as there are constants. `Variant` holds what differs.
-/

namespace TwinLedger.Sha2

/-- What makes one member of the family. -/
structure Variant (ω : Type) where
  /-- Bytes of a word. -/
  wordSize : Nat
  /-- One for each round. -/
  constants : List ω
  /-- The eight words before the first block. -/
  start : List ω
  ofNat : Nat → ω
  toNat : ω → Nat
  /-- The linear maps of the rounds. -/
  sum0 : ω → ω
  sum1 : ω → ω
  /-- The linear maps that stretch the message. -/
  stretch0 : ω → ω
  stretch1 : ω → ω

/-- The working words of the rounds. -/
structure Registers (ω : Type) where
  a : ω
  b : ω
  c : ω
  d : ω
  e : ω
  f : ω
  g : ω
  h : ω

section

variable {ω : Type} [Add ω] [XorOp ω] [AndOp ω] [Complement ω]

/-- One round on the registers with a constant and a word of the message. -/
def round (v : Variant ω) (r : Registers ω) (constant word : ω) : Registers ω :=
  let choice := (r.e &&& r.f) ^^^ (~~~ r.e &&& r.g)
  let t1 := r.h + v.sum1 r.e + choice + constant + word
  let majority := (r.a &&& r.b) ^^^ (r.a &&& r.c) ^^^ (r.b &&& r.c)
  let t2 := v.sum0 r.a + majority
  ⟨t1 + t2, r.a, r.b, r.c, r.d + t1, r.e, r.f, r.g⟩

/-- The rounds of one block. The window holds the next sixteen words of the stretched message;
each round takes the first and puts a new one behind. -/
def rounds (v : Variant ω) : List ω → List ω → Registers ω → Registers ω
  | constant :: constants, w0 :: window, r =>
    let next :=
      match window with
      | [w1, _, _, _, _, _, _, _, w9, _, _, _, _, w14, _] =>
        v.stretch1 w14 + w9 + v.stretch0 w1 + w0
      | _ => w0
    rounds v constants (window ++ [next]) (round v r constant w0)
  | _, _, r => r

/-- Mixes a block of sixteen words into the state. -/
def compress (v : Variant ω) (state block : List ω) : List ω :=
  match state with
  | [a, b, c, d, e, f, g, h] =>
    let r := rounds v v.constants block ⟨a, b, c, d, e, f, g, h⟩
    [a + r.a, b + r.b, c + r.c, d + r.d, e + r.e, f + r.f, g + r.g, h + r.h]
  | _ => state

/-- Words from the bytes, most significant byte first. -/
def words (v : Variant ω) : Nat → Bytes → List ω
  | 0, _ => []
  | n + 1, bytes =>
    v.ofNat (Bytes.toNat (bytes.take v.wordSize)) :: words v n (bytes.drop v.wordSize)

/-- The bytes that fill a message of the given length up to whole blocks. -/
def padding (v : Variant ω) (length : Nat) : Bytes :=
  let block := 16 * v.wordSize
  let zeros := (2 * block - 1 - 2 * v.wordSize - length % block) % block
  0x80 :: (List.replicate zeros 0x00 ++ Bytes.bigEndian (2 * v.wordSize) (8 * length))

/-- Mixes in the given number of blocks. -/
def absorbAll (v : Variant ω) : Nat → List ω → Bytes → List ω
  | 0, state, _ => state
  | n + 1, state, bytes =>
    absorbAll v n (compress v state (words v 16 bytes)) (bytes.drop (16 * v.wordSize))

/-- The digest of a message. -/
def digest (v : Variant ω) (input : Bytes) : Bytes :=
  let padded := input ++ padding v input.length
  let state := absorbAll v (padded.length / (16 * v.wordSize)) v.start padded
  state.flatMap fun w => Bytes.bigEndian v.wordSize (v.toNat w)

end

/-- Rotation to the right by less than 32 bits. -/
def rotate32 (w n : UInt32) : UInt32 := (w >>> n) ||| (w <<< (32 - n))

/-- Rotation to the right by less than 64 bits. -/
def rotate64 (w n : UInt64) : UInt64 := (w >>> n) ||| (w <<< (64 - n))

/-- The member with words of 32 bits. -/
def narrow : Variant UInt32 where
  wordSize := 4
  constants :=
    [0x428a2f98, 0x71374491, 0xb5c0fbcf, 0xe9b5dba5, 0x3956c25b, 0x59f111f1, 0x923f82a4,
     0xab1c5ed5, 0xd807aa98, 0x12835b01, 0x243185be, 0x550c7dc3, 0x72be5d74, 0x80deb1fe,
     0x9bdc06a7, 0xc19bf174, 0xe49b69c1, 0xefbe4786, 0x0fc19dc6, 0x240ca1cc, 0x2de92c6f,
     0x4a7484aa, 0x5cb0a9dc, 0x76f988da, 0x983e5152, 0xa831c66d, 0xb00327c8, 0xbf597fc7,
     0xc6e00bf3, 0xd5a79147, 0x06ca6351, 0x14292967, 0x27b70a85, 0x2e1b2138, 0x4d2c6dfc,
     0x53380d13, 0x650a7354, 0x766a0abb, 0x81c2c92e, 0x92722c85, 0xa2bfe8a1, 0xa81a664b,
     0xc24b8b70, 0xc76c51a3, 0xd192e819, 0xd6990624, 0xf40e3585, 0x106aa070, 0x19a4c116,
     0x1e376c08, 0x2748774c, 0x34b0bcb5, 0x391c0cb3, 0x4ed8aa4a, 0x5b9cca4f, 0x682e6ff3,
     0x748f82ee, 0x78a5636f, 0x84c87814, 0x8cc70208, 0x90befffa, 0xa4506ceb, 0xbef9a3f7,
     0xc67178f2]
  start :=
    [0x6a09e667, 0xbb67ae85, 0x3c6ef372, 0xa54ff53a, 0x510e527f, 0x9b05688c, 0x1f83d9ab,
     0x5be0cd19]
  ofNat := UInt32.ofNat
  toNat := UInt32.toNat
  sum0 w := rotate32 w 2 ^^^ rotate32 w 13 ^^^ rotate32 w 22
  sum1 w := rotate32 w 6 ^^^ rotate32 w 11 ^^^ rotate32 w 25
  stretch0 w := rotate32 w 7 ^^^ rotate32 w 18 ^^^ w >>> 3
  stretch1 w := rotate32 w 17 ^^^ rotate32 w 19 ^^^ w >>> 10

/-- The member with words of 64 bits. -/
def wide : Variant UInt64 where
  wordSize := 8
  constants :=
    [0x428a2f98d728ae22, 0x7137449123ef65cd, 0xb5c0fbcfec4d3b2f, 0xe9b5dba58189dbbc,
     0x3956c25bf348b538, 0x59f111f1b605d019, 0x923f82a4af194f9b, 0xab1c5ed5da6d8118,
     0xd807aa98a3030242, 0x12835b0145706fbe, 0x243185be4ee4b28c, 0x550c7dc3d5ffb4e2,
     0x72be5d74f27b896f, 0x80deb1fe3b1696b1, 0x9bdc06a725c71235, 0xc19bf174cf692694,
     0xe49b69c19ef14ad2, 0xefbe4786384f25e3, 0x0fc19dc68b8cd5b5, 0x240ca1cc77ac9c65,
     0x2de92c6f592b0275, 0x4a7484aa6ea6e483, 0x5cb0a9dcbd41fbd4, 0x76f988da831153b5,
     0x983e5152ee66dfab, 0xa831c66d2db43210, 0xb00327c898fb213f, 0xbf597fc7beef0ee4,
     0xc6e00bf33da88fc2, 0xd5a79147930aa725, 0x06ca6351e003826f, 0x142929670a0e6e70,
     0x27b70a8546d22ffc, 0x2e1b21385c26c926, 0x4d2c6dfc5ac42aed, 0x53380d139d95b3df,
     0x650a73548baf63de, 0x766a0abb3c77b2a8, 0x81c2c92e47edaee6, 0x92722c851482353b,
     0xa2bfe8a14cf10364, 0xa81a664bbc423001, 0xc24b8b70d0f89791, 0xc76c51a30654be30,
     0xd192e819d6ef5218, 0xd69906245565a910, 0xf40e35855771202a, 0x106aa07032bbd1b8,
     0x19a4c116b8d2d0c8, 0x1e376c085141ab53, 0x2748774cdf8eeb99, 0x34b0bcb5e19b48a8,
     0x391c0cb3c5c95a63, 0x4ed8aa4ae3418acb, 0x5b9cca4f7763e373, 0x682e6ff3d6b2b8a3,
     0x748f82ee5defb2fc, 0x78a5636f43172f60, 0x84c87814a1f0ab72, 0x8cc702081a6439ec,
     0x90befffa23631e28, 0xa4506cebde82bde9, 0xbef9a3f7b2c67915, 0xc67178f2e372532b,
     0xca273eceea26619c, 0xd186b8c721c0c207, 0xeada7dd6cde0eb1e, 0xf57d4f7fee6ed178,
     0x06f067aa72176fba, 0x0a637dc5a2c898a6, 0x113f9804bef90dae, 0x1b710b35131c471b,
     0x28db77f523047d84, 0x32caab7b40c72493, 0x3c9ebe0a15c9bebc, 0x431d67c49c100d4c,
     0x4cc5d4becb3e42b6, 0x597f299cfc657e2a, 0x5fcb6fab3ad6faec, 0x6c44198c4a475817]
  start :=
    [0x6a09e667f3bcc908, 0xbb67ae8584caa73b, 0x3c6ef372fe94f82b, 0xa54ff53a5f1d36f1,
     0x510e527fade682d1, 0x9b05688c2b3e6c1f, 0x1f83d9abfb41bd6b, 0x5be0cd19137e2179]
  ofNat := UInt64.ofNat
  toNat := UInt64.toNat
  sum0 w := rotate64 w 28 ^^^ rotate64 w 34 ^^^ rotate64 w 39
  sum1 w := rotate64 w 14 ^^^ rotate64 w 18 ^^^ rotate64 w 41
  stretch0 w := rotate64 w 1 ^^^ rotate64 w 8 ^^^ w >>> 7
  stretch1 w := rotate64 w 19 ^^^ rotate64 w 61 ^^^ w >>> 6

end TwinLedger.Sha2

namespace TwinLedger

/-- The SHA-256 digest, 32 bytes. -/
def sha256 (input : Bytes) : Bytes := Sha2.digest Sha2.narrow input

/-- The SHA-512 digest, 64 bytes. -/
def sha512 (input : Bytes) : Bytes := Sha2.digest Sha2.wide input

end TwinLedger
