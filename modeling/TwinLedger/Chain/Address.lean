import TwinLedger.Data.Hex
import TwinLedger.Hash.Keccak
import TwinLedger.Rlp

/-!
# Addresses

An address is the tail of a hash: of a public key for an account with a key, of sender and nonce
for a contract. Messages write addresses with a checksum in the case of the letters.
-/

namespace TwinLedger.Address

/-- The last twenty bytes of a hash. -/
def ofHash (h : Hash) : Address := .wrap h.toNat

/-- The account that a public key controls. -/
def ofKey (key : FixedBytes 32) : Address := ofHash (keccak256 key.toBytes)

/-- The contract that a sender creates when its nonce is the given one. -/
def ofCreation (sender : Address) (nonce : U64) : Address :=
  ofHash (keccak256 (Rlp.encodeList [.ofFixed sender, .ofWord nonce]))

/-- Puts a letter in upper case where the digit of the hash beside it is eight or more. -/
def withCase : List Char → List Char → List Char
  | c :: chars, d :: hash =>
    (if (Hex.value? d).any (8 ≤ ·) then c.toUpper else c) :: withCase chars hash
  | chars, _ => chars

/-- The address in hexadecimal, the case of its letters taken from the hash of its digits. -/
def checksum (a : Address) : String :=
  let digits := Hex.digits a.toBytes
  let hash := keccak256 (digits.map fun c => UInt8.ofNat c.toNat)
  "0x" ++ String.ofList (withCase digits (Hex.digits hash.toBytes))

end TwinLedger.Address
