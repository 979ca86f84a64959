import TwinLedger.Chain.Block
import TwinLedger.Chain.Receipt
import TwinLedger.Json.Decoder
import TwinLedger.Json.Value
import TwinLedger.World.Account

/-!
# The JSON forms of blocks, receipts and accounts

Every type has a form to write and, apart from accounts, a decoder that reads it back. Fields
stand in the order of their declaration; 256-bit numbers are hexadecimal text without leading
zeros.
-/

namespace TwinLedger

/-! ## Parts -/

def Word.form (w : U64) : Json := .natural w.toNat

def Word.hexForm (w : U256) : Json := .string (Hex.minimal w.toNat)

def FixedBytes.form {size : Nat} (x : FixedBytes size) : Json := .string x.hex

def Bytes.form (b : Bytes) : Json := .string b.hex

/-- The form of a value that may be absent. -/
def Json.ofOption {α : Type} (form : α → Json) : Option α → Json
  | some a => form a
  | none => .null

/-! ## Headers, transactions and blocks -/

def Header.form (h : Header) : Json :=
  .object
    [("parent_hash", h.parentHash.form), ("coinbase", h.coinbase.form),
      ("number", h.number.form), ("gas_limit", h.gasLimit.form), ("gas_used", h.gasUsed.form),
      ("timestamp", h.timestamp.form), ("extra_data", h.extraData.form)]

def Header.decoder : Decoder Header :=
  .record <| Header.mk <$> .required "parent_hash" (.fixed 32) <*>
    .required "coinbase" (.fixed 20) <*> .required "number" .u64 <*> .required "gas_limit" .u64 <*>
    .required "gas_used" .u64 <*> .required "timestamp" .u64 <*> .required "extra_data" .bytes

def Transaction.form (tx : Transaction) : Json :=
  .object
    [("nonce", tx.nonce.form), ("gas_price", tx.gasPrice.hexForm),
      ("gas_limit", tx.gasLimit.form), ("to", .ofOption FixedBytes.form tx.recipient),
      ("value", tx.value.hexForm), ("input", tx.input.form),
      ("chain_id", .ofOption Word.form tx.chainId), ("public_key", tx.publicKey.form),
      ("signature", tx.signature.form)]

def Transaction.decoder : Decoder Transaction :=
  .record <| Transaction.mk <$> .required "nonce" .u64 <*> .required "gas_price" .u256 <*>
    .required "gas_limit" .u64 <*> .optional "to" (.fixed 20) <*> .required "value" .u256 <*>
    .required "input" .bytes <*> .optional "chain_id" .u64 <*>
    .required "public_key" (.fixed 32) <*> .required "signature" (.fixed 64)

def Block.form (b : Block) : Json :=
  .object
    [("header", b.header.form), ("transactions", .array (b.transactions.map Transaction.form)),
      ("uncles", .array (b.uncles.map Header.form))]

def Block.decoder : Decoder Block :=
  .record <| Block.mk <$> .required "header" Header.decoder <*>
    .required "transactions" (.list Transaction.decoder) <*>
    .required "uncles" (.list Header.decoder)

/-! ## Logs and receipts -/

def Log.form (l : Log) : Json :=
  .object
    [("address", l.address.form), ("topics", .array (l.topics.map FixedBytes.form)),
      ("data", l.data.form), ("block_number", l.blockNumber.form), ("tx_hash", l.txHash.form),
      ("tx_index", l.txIndex.form), ("block_hash", l.blockHash.form), ("index", l.index.form)]

def Log.decoder : Decoder Log :=
  .record <| Log.mk <$> .required "address" (.fixed 20) <*>
    .required "topics" (.list (.fixed 32)) <*> .required "data" .bytes <*>
    .required "block_number" .u64 <*> .required "tx_hash" (.fixed 32) <*>
    .required "tx_index" .u64 <*> .required "block_hash" (.fixed 32) <*> .required "index" .u64

def ReceiptOutcome.form : ReceiptOutcome → Json
  | .postState root => .object [("post_state", root.form)]
  | .status succeeded => .object [("status", .bool succeeded)]

def ReceiptOutcome.decoder : Decoder ReceiptOutcome :=
  .tagged
    [("post_state", ReceiptOutcome.postState <$> .fixed 32),
      ("status", ReceiptOutcome.status <$> .bool)]

def Receipt.form (r : Receipt) : Json :=
  .object
    [("outcome", r.outcome.form), ("cumulative_gas_used", r.cumulativeGasUsed.form),
      ("bloom", r.bloom.form), ("logs", .array (r.logs.map Log.form)),
      ("tx_hash", r.txHash.form),
      ("contract_address", .ofOption FixedBytes.form r.contractAddress),
      ("gas_used", r.gasUsed.form), ("block_hash", r.blockHash.form),
      ("block_number", r.blockNumber.form), ("transaction_index", r.transactionIndex.form)]

def Receipt.decoder : Decoder Receipt :=
  .record <| Receipt.mk <$> .required "outcome" ReceiptOutcome.decoder <*>
    .required "cumulative_gas_used" .u64 <*> .required "bloom" (.fixed 256) <*>
    .required "logs" (.list Log.decoder) <*> .required "tx_hash" (.fixed 32) <*>
    .optional "contract_address" (.fixed 20) <*> .required "gas_used" .u64 <*>
    .required "block_hash" (.fixed 32) <*> .required "block_number" .u64 <*>
    .required "transaction_index" .u64

/-! ## Accounts -/

def Account.form (a : Account) : Json :=
  .object
    [("nonce", a.nonce.form), ("balance", a.balance.hexForm), ("code", a.code.form),
      ("storage", .object (a.storage.entries.map fun e => (e.1.hex, e.2.form)))]

end TwinLedger
