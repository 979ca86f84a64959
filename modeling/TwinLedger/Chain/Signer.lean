import TwinLedger.Chain.Address
import TwinLedger.Chain.Transaction
import TwinLedger.Config.Chain
import TwinLedger.Signature.Ed25519

/-!
# Signers

The sender of a transaction is the account of its public key, once the signature is found to
hold. What the signature covers depends on the fork in force: before EIP-155 no signature covers
a chain id, and a transaction that carries one is refused; afterwards a transaction that carries
one is good for that chain only.
-/

namespace TwinLedger

/-- Which payloads signatures may cover. -/
inductive Signer where
  | frontier
  | eip155 (chainId : U64)
  deriving DecidableEq

/-- Why a transaction has no sender. -/
inductive SignerError where
  | invalidPublicKey
  | invalidSignature
  | invalidChainId (expected got : U64)
  | replayProtectionUnavailable
  deriving DecidableEq

def SignerError.message : SignerError → String
  | .invalidPublicKey => "invalid sender: public key is not a valid ed25519 point"
  | .invalidSignature => "invalid sender: signature verification failed"
  | .invalidChainId expected got =>
    "invalid chain id for signer: expected " ++ expected.decimal ++ ", got " ++ got.decimal
  | .replayProtectionUnavailable => "replay protected transaction before EIP-155"

namespace Signer

/-- The signer in force at a block. -/
def forBlock (config : ChainConfig) (number : U64) : Signer :=
  if config.isEip155 number then .eip155 config.chainId else .frontier

/-- The payload that the signature must cover. -/
def payload (s : Signer) (tx : Transaction) : Except SignerError Bytes :=
  match tx.chainId with
  | none => .ok tx.unprotectedPayload
  | some got =>
    match s with
    | .frontier => .error .replayProtectionUnavailable
    | .eip155 expected =>
      if expected = got then .ok (tx.protectedPayload got)
      else .error (.invalidChainId expected got)

/-- The hash that the signature is made over. -/
def signingHash (s : Signer) (tx : Transaction) : Except SignerError Hash :=
  (s.payload tx).map keccak256

/-- The account that signed the transaction. -/
def sender (s : Signer) (tx : Transaction) : Except SignerError Address := do
  let hash ← s.signingHash tx
  match Ed25519.point? tx.publicKey with
  | none => .error .invalidPublicKey
  | some point =>
    if Ed25519.verify tx.publicKey point hash.toBytes tx.signature then
      .ok (Address.ofKey tx.publicKey)
    else .error .invalidSignature

/-- The message of the transaction. -/
def asMessage (s : Signer) (tx : Transaction) : Except SignerError Message :=
  (s.sender tx).map (Message.ofTransaction tx)

/-- The transaction with public key and signature filled in. -/
def sign (s : Signer) (tx : Transaction) (seed : FixedBytes 32) :
    Except SignerError Transaction := do
  let keyed := { tx with publicKey := Ed25519.publicKey seed }
  let hash ← s.signingHash keyed
  .ok { keyed with signature := Ed25519.sign seed hash.toBytes }

end Signer

end TwinLedger
