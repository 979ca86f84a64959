import TwinLedger.Data.Bytes

/-!
# Hexadecimal text

Bytes as two lower-case digits each behind `0x`. Reading takes either case, also of the `x`, and
the `0x` may be absent.
-/

namespace TwinLedger.Hex

/-- The digit of a number below sixteen. -/
def digit (n : Nat) : Char := if n < 10 then Char.ofNat (48 + n) else Char.ofNat (87 + n)

/-- The value of a digit of either case. -/
def value? (c : Char) : Option Nat :=
  if '0' ≤ c ∧ c ≤ '9' then some (c.toNat - 48)
  else if 'a' ≤ c ∧ c ≤ 'f' then some (c.toNat - 87)
  else if 'A' ≤ c ∧ c ≤ 'F' then some (c.toNat - 55)
  else none

/-- Two digits for each byte. -/
def digits : Bytes → List Char
  | [] => []
  | b :: rest => digit (b.toNat / 16) :: digit (b.toNat % 16) :: digits rest

/-- Bytes from an even number of digits. -/
def ofDigits? : List Char → Option Bytes
  | [] => some []
  | [_] => none
  | high :: low :: rest => do
    let h ← value? high
    let l ← value? low
    let bytes ← ofDigits? rest
    pure (UInt8.ofNat (16 * h + l) :: bytes)

/-- Bytes from digits that may stand behind `0x`. -/
def ofChars? : List Char → Option Bytes
  | '0' :: 'x' :: rest | '0' :: 'X' :: rest => ofDigits? rest
  | chars => ofDigits? chars

def ofString? (s : String) : Option Bytes := ofChars? s.toList

/-- The number in base 16 with as few digits as it has, at least one. -/
def minimal (n : Nat) : String := "0x" ++ String.ofList (Nat.toDigits 16 n)

end TwinLedger.Hex

namespace TwinLedger

/-- The bytes as hexadecimal text behind `0x`. -/
def Bytes.hex (bytes : Bytes) : String := "0x" ++ String.ofList (Hex.digits bytes)

/-- All bytes as hexadecimal text behind `0x`. -/
def FixedBytes.hex {size : Nat} (x : FixedBytes size) : String := x.toBytes.hex

end TwinLedger
