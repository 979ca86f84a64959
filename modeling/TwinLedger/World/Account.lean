import TwinLedger.Data.SortedMap
import TwinLedger.Hash.Keccak
import TwinLedger.Rlp

/-!
# Accounts

Nonce, balance, code and storage of one address. Writing zero to a slot removes it from the
storage; an account may still be given with a zero written out, which reads like an absent slot.
-/

namespace TwinLedger

/-- The state of one address. -/
structure Account where
  nonce : U64 := 0
  balance : U256 := 0
  code : Bytes := []
  storage : SortedMap Hash Hash := .empty
  deriving DecidableEq

namespace Account

/-- Neither nonce nor balance nor code; storage does not count. -/
def isEmpty (a : Account) : Bool := a.nonce == 0 && a.balance == 0 && a.code.isEmpty

/-- The value of a slot, zero where there is none. -/
def slot (a : Account) (key : Hash) : Hash := (a.storage.get? key).getD 0

/-- A storage after a write: zero takes the slot away. -/
def write (storage : SortedMap Hash Hash) (key value : Hash) : SortedMap Hash Hash :=
  if value.isZero then storage.erase key else storage.insert key value

/-- The account with a slot written. -/
def setSlot (a : Account) (key value : Hash) : Account :=
  { a with storage := write a.storage key value }

def codeHash (a : Account) : Hash := keccak256 a.code

/-- What the root of a storage is the hash of: its slots in order. -/
def storageEncoding (storage : SortedMap Hash Hash) : Bytes :=
  storage.entries.flatMap fun e => Rlp.encodeList [.ofFixed e.1, .ofFixed e.2]

/-- The commitment to the storage. -/
def storageRoot (a : Account) : Hash := keccak256 (storageEncoding a.storage)

end Account

end TwinLedger
