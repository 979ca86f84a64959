import TwinLedger.Data.Bytes

/-!
# The twisted Edwards curve over the field of 2^255 - 19

Points of the curve `-x² + y² = 1 + d x² y²`, held in four coordinates so that adding needs no
division, with the addition that is right for every pair of points. A point is written as its
`y` in 32 bytes, least significant first, with the parity of `x` in the highest bit.

Reading a point is lenient: `y` need not be below the size of the field, points of small order
are taken, and so is a parity bit on the points whose `x` is zero.
-/

namespace TwinLedger.Edwards

/-- The highest bit of 32 bytes. -/
def highBit : Nat := Nat.pow 2 255

/-- The size of the field. -/
def fieldSize : Nat := highBit - 19

/-- The order of the group that the base point generates. -/
def groupOrder : Nat := Nat.pow 2 252 + 27742317777372353535851937790883648493

/-- A power modulo the size of the field, for an exponent of at most the given number of bits. -/
def power (base : Nat) : Nat → Nat → Nat
  | 0, _ => 1
  | bits + 1, exponent =>
    let root := power base bits (exponent / 2)
    let square := root * root % fieldSize
    if exponent % 2 = 1 then square * base % fieldSize else square

/-- The inverse in the field; zero stays zero. -/
def inverse (a : Nat) : Nat := power a 255 (fieldSize - 2)

def negate (a : Nat) : Nat := (fieldSize - a % fieldSize) % fieldSize

def subtract (a b : Nat) : Nat := (a + negate b) % fieldSize

/-- The constant of the curve, `-121665 / 121666`. -/
def curveConstant : Nat :=
  37095705934669439343138083508754565189542113879843219016388785533085940283555

/-- A square root of minus one. -/
def rootOfMinusOne : Nat :=
  19681161376707505956807079304988542015446066515923890162744021073123829784752

/-- A point in extended coordinates: `x` and `y` are `x / z` and `y / z`, and `t` is `x y / z`. -/
structure Point where
  x : Nat
  y : Nat
  z : Nat
  t : Nat

namespace Point

/-- The neutral point. -/
def zero : Point := ⟨0, 1, 1, 0⟩

def base : Point :=
  let x := 15112221349535400772501151409588531511454012693041857206046113283949847762202
  let y := 46316835694926478169428394003475163141307993866256225615783033603165251855960
  ⟨x, y, 1, x * y % fieldSize⟩

def add (p q : Point) : Point :=
  let a := subtract p.y p.x * subtract q.y q.x % fieldSize
  let b := (p.y + p.x) * (q.y + q.x) % fieldSize
  let c := p.t * (2 * curveConstant) % fieldSize * q.t % fieldSize
  let d := p.z * 2 * q.z % fieldSize
  let e := subtract b a
  let f := subtract d c
  let g := d + c
  let h := b + a
  ⟨e * f % fieldSize, g * h % fieldSize, f * g % fieldSize, e * h % fieldSize⟩

def neg (p : Point) : Point := ⟨negate p.x, p.y, p.z, negate p.t⟩

/-- The multiple by a scalar of at most the given number of bits. -/
def scale (p : Point) : Nat → Nat → Point
  | 0, _ => zero
  | bits + 1, scalar =>
    let half := scale p bits (scalar / 2)
    let double := half.add half
    if scalar % 2 = 1 then double.add p else double

/-- The written form of the point. -/
def encode (p : Point) : Bytes :=
  let i := inverse p.z
  let x := p.x * i % fieldSize
  let y := p.y * i % fieldSize
  Bytes.littleEndian 32 (y + x % 2 * highBit)

/-- A field element whose square, multiplied by `v`, is `u`, if there is one. -/
def rootOfQuotient? (u v : Nat) : Option Nat :=
  let v3 := v * v % fieldSize * v % fieldSize
  let v7 := v3 * v3 % fieldSize * v % fieldSize
  let r := u * v3 % fieldSize * power (u * v7 % fieldSize) 255 ((fieldSize - 5) / 8) % fieldSize
  let check := v * (r * r % fieldSize) % fieldSize
  if check = u then some r
  else if check = negate u then some (r * rootOfMinusOne % fieldSize)
  else none

/-- The point of a written form, if its `y` belongs to one. -/
def decode? (bytes : Bytes) : Option Point :=
  let n := Bytes.toNat bytes.reverse
  let y := n % highBit % fieldSize
  let yy := y * y % fieldSize
  match rootOfQuotient? (subtract yy 1) ((curveConstant * yy + 1) % fieldSize) with
  | none => none
  | some r =>
    let x := if r % 2 = n / highBit % 2 then r else negate r
    some ⟨x, y, 1, x * y % fieldSize⟩

end Point

end TwinLedger.Edwards
