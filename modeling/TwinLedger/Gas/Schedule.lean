import TwinLedger.Data.Bytes

/-!
# The gas schedule

What execution costs. Both executors charge through these functions alone, so a disagreement
between them is never one about prices.
-/

namespace TwinLedger.Gas

/-- Every transaction. -/
def transaction : Nat := 21000

/-- A transaction that creates a contract, once Homestead is active. -/
def creation : Nat := 53000

/-- A zero byte of transaction data. -/
def zeroByte : Nat := 4

/-- Any other byte of transaction data. -/
def nonZeroByte : Nat := 68

/-- A byte of code that a creation deposits. -/
def codeByte : Nat := 200

/-- The most bytes of code, once EIP-158 is active. -/
def maxCodeSize : Nat := 24576

/-- Giving a zero slot a value. -/
def storageSet : Nat := 20000

/-- Any other write to a slot. -/
def storageReset : Nat := 5000

/-- The refund for making a slot zero. -/
def storageClearRefund : Nat := 15000

/-- A log, and each topic and byte of it. -/
def log : Nat := 375

def logTopic : Nat := 375

def logByte : Nat := 8

/-- Taking up any instruction. -/
def step : Nat := 3

/-- The refund is at most the gas used over this number. -/
def refundQuotient : Nat := 2

/-- Base price and price of a word of each precompiled contract. -/
def sha256Base : Nat := 60

def sha256Word : Nat := 12

def ripemd160Base : Nat := 600

def ripemd160Word : Nat := 120

def identityBase : Nat := 15

def identityWord : Nat := 3

/-- What a message pays before anything is executed, if that is a 64-bit number. -/
def intrinsic? (data : Bytes) (creates homestead : Bool) : Option U64 :=
  let zeros := data.count 0
  let base := if creates && homestead then creation else transaction
  Word.ofNat? (base + nonZeroByte * (data.length - zeros) + zeroByte * zeros)

/-- Words of 32 bytes that hold `length` bytes. -/
def words (length : Nat) : Checked U64 := do
  let rounded : U64 ← Word.checked (length + 31)
  pure (rounded.div 32)

/-- A price that grows with the words of the input. -/
def linear (base perWord : U64) (length : Nat) : Checked U64 := do
  let count ← words length
  pure (base.satAdd (perWord.satMul count))

/-- An instruction that costs nothing but its being taken up. -/
def bareInstruction : U64 := .wrap step

/-- An instruction that costs the given gas beside its being taken up. -/
def instruction (extra : U64) : Checked U64 := bareInstruction.add extra

/-- A log with the given number of topics and bytes, taking up the instruction not included. -/
def logCost (topics length : Nat) : Checked U64 :=
  Word.checked (log + logTopic * topics + logByte * length)

/-- What a write to a slot costs, taking up the instruction not included, and what it earns. -/
structure StorageCharge where
  cost : U64
  refund : U64
  deriving DecidableEq

/-- The charge by whether the slot is zero now and whether it is to be zero. -/
def storageCharge : Bool → Bool → StorageCharge
  | true, false => ⟨.wrap storageSet, 0⟩
  | false, true => ⟨.wrap storageReset, .wrap storageClearRefund⟩
  | _, _ => ⟨.wrap storageReset, 0⟩

/-- The deposit for the code of a new contract. -/
def deposit (length : Nat) : Checked U64 := Word.checked (codeByte * length)

end TwinLedger.Gas
