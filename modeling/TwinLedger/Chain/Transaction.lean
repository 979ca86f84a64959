import TwinLedger.Hash.Keccak
import TwinLedger.Rlp

/-!
# Transactions and messages

A transaction carries a public key and a signature in the place of a sender. Once the signature
is found to hold, the transaction becomes a message, which names its sender.

The signature covers one of two payloads: six fields alone, or six fields, a chain id and two
zeros. The hash that names a transaction covers all of it; an absent chain id counts as zero
there.
-/

namespace TwinLedger

/-- A transaction as it stands in a block. -/
structure Transaction where
  nonce : U64 := 0
  gasPrice : U256 := 0
  gasLimit : U64 := 0
  /-- The account called; absent where a contract is created. -/
  recipient : Option Address := none
  value : U256 := 0
  input : Bytes := []
  /-- The chain that the transaction is bound to. -/
  chainId : Option U64 := none
  publicKey : FixedBytes 32 := 0
  signature : FixedBytes 64 := 0
  deriving DecidableEq

namespace Transaction

/-- The six fields that every signature covers. -/
def signedItems (tx : Transaction) : List Rlp.Item :=
  [.ofWord tx.nonce, .ofWord tx.gasPrice, .ofWord tx.gasLimit, .ofAddress? tx.recipient,
    .ofWord tx.value, .string tx.input]

/-- What a signature without replay protection covers. -/
def unprotectedPayload (tx : Transaction) : Bytes := Rlp.encodeList tx.signedItems

/-- What a signature for one chain covers. -/
def protectedPayload (tx : Transaction) (chainId : U64) : Bytes :=
  Rlp.encodeList (tx.signedItems ++ [.ofWord chainId, .ofNat 0, .ofNat 0])

/-- What the name of the transaction is the hash of. -/
def encoding (tx : Transaction) : Bytes :=
  Rlp.encodeList <| tx.signedItems ++
    [.ofWord (tx.chainId.getD 0), .ofFixed tx.publicKey, .ofFixed tx.signature]

/-- The name of the transaction. -/
def hash (tx : Transaction) : Hash := keccak256 tx.encoding

/-- Whether the transaction creates a contract. -/
def isCreation (tx : Transaction) : Bool := tx.recipient.isNone

end Transaction

/-- A transaction whose sender is known. -/
structure Message where
  sender : Address
  recipient : Option Address
  nonce : U64
  value : U256
  gasLimit : U64
  gasPrice : U256
  data : Bytes
  deriving DecidableEq

namespace Message

/-- The message of a transaction sent by the given account. -/
def ofTransaction (tx : Transaction) (sender : Address) : Message where
  sender
  recipient := tx.recipient
  nonce := tx.nonce
  value := tx.value
  gasLimit := tx.gasLimit
  gasPrice := tx.gasPrice
  data := tx.input

/-- Whether the message creates a contract. -/
def isCreation (m : Message) : Bool := m.recipient.isNone

end Message

end TwinLedger
