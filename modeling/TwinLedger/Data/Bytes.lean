import TwinLedger.Data.Word

/-!
# Bytes

Strings of bytes, and byte strings of a fixed size. A string of fixed size is held as the number
that it writes in base 256, most significant byte first, so that the order of addresses and keys
is the order of numbers and equality is decided by one comparison. `toBytes` spells the number
out again.
-/

namespace TwinLedger

/-- Code, call data, encodings. -/
abbrev Bytes := List UInt8

namespace Bytes

/-- The number written by the bytes in base 256, most significant first. -/
def toNat (bytes : Bytes) : Nat := bytes.foldl (fun n b => n * 256 + b.toNat) 0

/-- The last `size` digits of a number in base 256, most significant first. -/
def bigEndian : Nat → Nat → Bytes
  | 0, _ => []
  | size + 1, n => UInt8.ofNat (n >>> (8 * size)) :: bigEndian size n

/-- The last `size` digits of a number in base 256, least significant first. -/
def littleEndian : Nat → Nat → Bytes
  | 0, _ => []
  | size + 1, n => UInt8.ofNat n :: littleEndian size (n / 256)

/-- How many base 256 digits a number has; zero has none. -/
def width (n : Nat) : Nat := if n = 0 then 0 else Nat.log2 n / 8 + 1

/-- A number in base 256 without leading zeros; zero is the empty string. -/
def minimal (n : Nat) : Bytes := bigEndian (width n) n

/-- Parts the first `n` bytes from the rest, if there are that many. -/
def split? : Nat → Bytes → Option (Bytes × Bytes)
  | 0, rest => some ([], rest)
  | _ + 1, [] => none
  | n + 1, b :: rest => (split? n rest).map fun (front, back) => (b :: front, back)

theorem length_bigEndian (size n : Nat) : (bigEndian size n).length = size := by
  induction size with
  | zero => rfl
  | succ size ih => simp [bigEndian, ih]

theorem split?_eq_some {n : Nat} {bytes front back : Bytes}
    (h : split? n bytes = some (front, back)) : bytes = front ++ back ∧ front.length = n := by
  induction n generalizing bytes front back with
  | zero => simp_all [split?]
  | succ n ih =>
    cases bytes with
    | nil => simp [split?] at h
    | cons b rest =>
      simp only [split?, Option.map_eq_some_iff, Prod.mk.injEq, Prod.exists] at h
      obtain ⟨f, r, hf, rfl, rfl⟩ := h
      obtain ⟨rfl, hlen⟩ := ih hf
      simp [hlen]

end Bytes

/-- A byte string of a fixed size, held as the number it writes in base 256. -/
@[ext] structure FixedBytes (size : Nat) where
  toNat : Nat
  isLt : toNat < Word.range (8 * size)
  deriving DecidableEq

namespace FixedBytes

variable {size : Nat}

/-- The string that writes a number, which is taken modulo the range. -/
def wrap (n : Nat) : FixedBytes size :=
  ⟨n % Word.range (8 * size), Nat.mod_lt _ (Word.range_pos _)⟩

instance (n : Nat) : OfNat (FixedBytes size) n := ⟨wrap n⟩

instance : Inhabited (FixedBytes size) := ⟨0⟩

/-- The bytes from the most significant one on. -/
def toBytes (x : FixedBytes size) : Bytes := Bytes.bigEndian size x.toNat

/-- The last `size` bytes of a string, zeros standing for those missing in front. -/
def ofBytes (bytes : Bytes) : FixedBytes size := wrap bytes.toNat

/-- A string of exactly `size` bytes. -/
def ofBytes? (bytes : Bytes) : Option (FixedBytes size) :=
  if bytes.length = size then some (ofBytes bytes) else none

/-- The string made of one byte only. -/
def replicate (b : UInt8) : FixedBytes size := ofBytes (List.replicate size b)

def isZero (x : FixedBytes size) : Bool := x.toNat == 0

/-- The bits of two strings together. -/
def or (a b : FixedBytes size) : FixedBytes size :=
  ⟨a.toNat ||| b.toNat, Nat.or_lt_two_pow a.isLt b.isLt⟩

/-- Reads the first `size` bytes. -/
def read? (size : Nat) (bytes : Bytes) : Option (FixedBytes size × Bytes) :=
  (Bytes.split? size bytes).map fun (front, back) => (ofBytes front, back)

/-- Reads `n` strings of the same size one after the other. -/
def readMany? (size : Nat) : Nat → Bytes → Option (List (FixedBytes size) × Bytes)
  | 0, bytes => some ([], bytes)
  | n + 1, bytes =>
    match read? size bytes with
    | none => none
    | some (x, rest) => (readMany? size n rest).map fun (xs, back) => (x :: xs, back)

theorem toNat_inj {a b : FixedBytes size} : a.toNat = b.toNat ↔ a = b :=
  ⟨FixedBytes.ext, congrArg _⟩

theorem length_toBytes (x : FixedBytes size) : x.toBytes.length = size :=
  Bytes.length_bigEndian _ _

theorem length_of_read? {bytes rest : Bytes} {x : FixedBytes size}
    (h : read? size bytes = some (x, rest)) : bytes.length = size + rest.length := by
  simp only [read?, Option.map_eq_some_iff, Prod.mk.injEq, Prod.exists] at h
  obtain ⟨front, back, hsplit, _, rfl⟩ := h
  obtain ⟨rfl, hlen⟩ := Bytes.split?_eq_some hsplit
  simp [hlen]

theorem length_of_readMany? {n : Nat} {bytes rest : Bytes} {xs : List (FixedBytes size)}
    (h : readMany? size n bytes = some (xs, rest)) :
    bytes.length = n * size + rest.length ∧ xs.length = n := by
  induction n generalizing bytes rest xs with
  | zero => simp_all [readMany?]
  | succ n ih =>
    unfold readMany? at h
    split at h
    · simp at h
    · next x mid hread =>
      simp only [Option.map_eq_some_iff, Prod.mk.injEq, Prod.exists] at h
      obtain ⟨ys, back, hmany, rfl, rfl⟩ := h
      obtain ⟨hlen, hcount⟩ := ih hmany
      have := length_of_read? hread
      simp [hcount, Nat.succ_mul]
      omega

end FixedBytes

/-- Names an account. -/
abbrev Address := FixedBytes 20

/-- Digests, storage keys and values, log topics. -/
abbrev Hash := FixedBytes 32

end TwinLedger
