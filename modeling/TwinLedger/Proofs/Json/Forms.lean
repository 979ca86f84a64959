import TwinLedger.Diagnostics.Report
import TwinLedger.Proofs.Json.Decoder

/-!
# Forms are read back

Every form is written with its fields in order, and the decoder of its type reads them back, so a
text tells everything of the value that it was written for. That goes for what a bundle is made of,

> a summary, a header, a transaction, logs and receipts (`DiagnosticReport.reads`, `Header.reads`,
> `Transaction.reads`, `Log.reads`, `Receipt.reads`),

and for blocks and configurations.
-/

namespace TwinLedger

open Decoder Fields

/-! ## Blocks -/

theorem Header.reads (h : Header) : Header.decoder.Reads h.form h := by
  have hfields := (reads_required "parent_hash" (reads_fixed h.parentHash)).map Header.mk
    |>.seq (reads_required "coinbase" (reads_fixed h.coinbase))
    |>.seq (reads_required "number" (reads_u64 h.number))
    |>.seq (reads_required "gas_limit" (reads_u64 h.gasLimit))
    |>.seq (reads_required "gas_used" (reads_u64 h.gasUsed))
    |>.seq (reads_required "timestamp" (reads_u64 h.timestamp))
    |>.seq (reads_required "extra_data" (reads_bytes h.extraData))
  exact reads_record hfields (by decide)

theorem Transaction.reads (tx : Transaction) : Transaction.decoder.Reads tx.form tx := by
  have hfields := (reads_required "nonce" (reads_u64 tx.nonce)).map Transaction.mk
    |>.seq (reads_required "gas_price" (reads_u256 tx.gasPrice))
    |>.seq (reads_required "gas_limit" (reads_u64 tx.gasLimit))
    |>.seq (reads_optional (x := tx.recipient) "to" rfl reads_fixed)
    |>.seq (reads_required "value" (reads_u256 tx.value))
    |>.seq (reads_required "input" (reads_bytes tx.input))
    |>.seq (reads_optional (x := tx.chainId) "chain_id" rfl reads_u64)
    |>.seq (reads_required "public_key" (reads_fixed tx.publicKey))
    |>.seq (reads_required "signature" (reads_fixed tx.signature))
  exact reads_record hfields (by decide)

theorem Block.reads (b : Block) : Block.decoder.Reads b.form b := by
  have hfields := (reads_required "header" b.header.reads).map Block.mk
    |>.seq (reads_required "transactions" (reads_list b.transactions fun tx _ => tx.reads))
    |>.seq (reads_required "uncles" (reads_list b.uncles fun h _ => h.reads))
  exact reads_record hfields (by decide)

/-! ## Logs and receipts -/

theorem Log.reads (l : Log) : Log.decoder.Reads l.form l := by
  have hfields := (reads_required "address" (reads_fixed l.address)).map Log.mk
    |>.seq (reads_required "topics" (reads_list l.topics fun x _ => reads_fixed x))
    |>.seq (reads_required "data" (reads_bytes l.data))
    |>.seq (reads_required "block_number" (reads_u64 l.blockNumber))
    |>.seq (reads_required "tx_hash" (reads_fixed l.txHash))
    |>.seq (reads_required "tx_index" (reads_u64 l.txIndex))
    |>.seq (reads_required "block_hash" (reads_fixed l.blockHash))
    |>.seq (reads_required "index" (reads_u64 l.index))
  exact reads_record hfields (by decide)

theorem ReceiptOutcome.reads (o : ReceiptOutcome) : ReceiptOutcome.decoder.Reads o.form o := by
  cases o with
  | postState root => exact reads_tagged rfl ((reads_fixed root).map ReceiptOutcome.postState)
  | status succeeded => exact reads_tagged rfl ((reads_bool succeeded).map ReceiptOutcome.status)

theorem Receipt.reads (r : Receipt) : Receipt.decoder.Reads r.form r := by
  have hfields := (reads_required "outcome" r.outcome.reads).map Receipt.mk
    |>.seq (reads_required "cumulative_gas_used" (reads_u64 r.cumulativeGasUsed))
    |>.seq (reads_required "bloom" (reads_fixed r.bloom))
    |>.seq (reads_required "logs" (reads_list r.logs fun l _ => l.reads))
    |>.seq (reads_required "tx_hash" (reads_fixed r.txHash))
    |>.seq (reads_optional (x := r.contractAddress) "contract_address" rfl reads_fixed)
    |>.seq (reads_required "gas_used" (reads_u64 r.gasUsed))
    |>.seq (reads_required "block_hash" (reads_fixed r.blockHash))
    |>.seq (reads_required "block_number" (reads_u64 r.blockNumber))
    |>.seq (reads_required "transaction_index" (reads_u64 r.transactionIndex))
  exact reads_record hfields (by decide)

/-! ## Summaries -/

theorem MismatchCheck.reads (c : MismatchCheck) :
    MismatchCheck.decoder.Reads (.string c.name) c := by
  refine reads_named ?_
  cases c <;> decide

theorem Mismatch.reads (m : Mismatch) : Mismatch.decoder.Reads m.form m := by
  have hfields := (reads_required "check" m.check.reads).map Mismatch.mk
    |>.seq (reads_required "detail" (reads_text m.detail))
  exact reads_record hfields (by decide)

theorem BranchReport.reads (b : BranchReport) : BranchReport.decoder.Reads b.form b := by
  have hfields := (reads_required "gas_used" (reads_u64 b.gasUsed)).map BranchReport.mk
    |>.seq (reads_optional (x := b.error) "error" rfl reads_text)
  exact reads_record hfields (by decide)

theorem DiagnosticReport.reads (r : DiagnosticReport) :
    DiagnosticReport.decoder.Reads r.form r := by
  have hfields := (reads_required "block_number" (reads_u64 r.blockNumber)).map DiagnosticReport.mk
    |>.seq (reads_required "tx_hash" (reads_fixed r.txHash))
    |>.seq (reads_required "mismatch" r.mismatch.reads)
    |>.seq (reads_required "alternate" r.alternate.reads)
    |>.seq (reads_required "reference" r.reference.reads)
    |>.seq (reads_required "diff" (reads_list r.diff fun s _ => reads_text s))
  exact reads_record hfields (by decide)

/-! ## Configurations -/

theorem DaoFork.reads (f : DaoFork) : DaoFork.decoder.Reads f.form f := by
  have hfields := (reads_required "block" (reads_u64 f.block)).map DaoFork.mk
    |>.seq (reads_required "support" (reads_bool f.support))
    |>.seq (reads_required "refund_contract" (reads_fixed f.refundContract))
    |>.seq (reads_required "drain_list" (reads_list f.drainList fun a _ => reads_fixed a))
  exact reads_record hfields (by decide)

theorem ChainConfig.reads (c : ChainConfig) : ChainConfig.decoder.Reads c.form c := by
  have hfields := (reads_required "chain_id" (reads_u64 c.chainId)).map ChainConfig.mk
    |>.seq (reads_optional (x := c.homesteadBlock) "homestead_block" rfl reads_u64)
    |>.seq (reads_optional (x := c.daoFork) "dao_fork" rfl DaoFork.reads)
    |>.seq (reads_optional (x := c.eip155Block) "eip155_block" rfl reads_u64)
    |>.seq (reads_optional (x := c.eip158Block) "eip158_block" rfl reads_u64)
    |>.seq (reads_optional (x := c.byzantiumBlock) "byzantium_block" rfl reads_u64)
  exact reads_recordFrom 1 hfields (by decide)

theorem Seat.reads (s : Seat) : Seat.decoder.Reads s.form s := by
  refine reads_named ?_
  cases s <;> decide

theorem Verification.reads (v : Verification) : Verification.decoder.Reads v.form v := by
  refine reads_named ?_
  cases v <;> decide

end TwinLedger
