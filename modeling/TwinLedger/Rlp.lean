import TwinLedger.Data.Bytes

/-!
# Recursive length encoding

An item is a string of bytes or a list of items. A single byte below 0x80 is its own encoding;
everything else stands behind a header that tells string from list and gives the length of what
follows. `Item.size` counts the bytes of an encoding without making it, and the header of a list
is built from these counts.
-/

namespace TwinLedger.Rlp

/-- What is encoded. -/
inductive Item where
  | string (payload : Bytes)
  | list (items : List Item)

/-- A number, written in base 256 without leading zeros. -/
def Item.ofNat (n : Nat) : Item := .string (Bytes.minimal n)

/-- A word, as the number it is. -/
def Item.ofWord {bits : Nat} (w : Word bits) : Item := .ofNat w.toNat

/-- All bytes of a string of fixed size, leading zeros included. -/
def Item.ofFixed {size : Nat} (x : FixedBytes size) : Item := .string x.toBytes

/-- An address, or the empty string where there is none. -/
def Item.ofAddress? : Option Address → Item
  | some a => .ofFixed a
  | none => .string []

/-- Bytes of the header of a payload. -/
def headerSize (length : Nat) : Nat := if length < 56 then 1 else 1 + Bytes.width length

/-- The header of a payload of the given length. The base tells a string (0x80) from a list
(0xc0). -/
def header (base length : Nat) : Bytes :=
  if length < 56 then [UInt8.ofNat (base + length)]
  else UInt8.ofNat (base + 55 + Bytes.width length) :: Bytes.minimal length

/-- Whether a payload is its own encoding. -/
def standsAlone : Bytes → Bool
  | [b] => b < 0x80
  | _ => false

mutual

/-- Bytes of the encoding of an item. -/
def Item.size : Item → Nat
  | .string payload =>
    if standsAlone payload then 1 else headerSize payload.length + payload.length
  | .list items => headerSize (sizes items) + sizes items

/-- Bytes of the encodings of some items together. -/
def sizes : List Item → Nat
  | [] => 0
  | item :: rest => item.size + sizes rest

end

mutual

/-- The encoding of an item. -/
def Item.encode : Item → Bytes
  | .string payload =>
    if standsAlone payload then payload else header 0x80 payload.length ++ payload
  | .list items => header 0xc0 (sizes items) ++ encodes items

/-- The encodings of some items one after the other. -/
def encodes : List Item → Bytes
  | [] => []
  | item :: rest => item.encode ++ encodes rest

end

/-- The encoding of a list of items. -/
def encodeList (items : List Item) : Bytes := (Item.list items).encode

end TwinLedger.Rlp
