import TwinLedger.Chain.Bloom

/-!
# Receipts

The durable record of what a transaction did.
-/

namespace TwinLedger

/-- How a receipt commits to the outcome: by the root of the state after the transaction, or,
once Byzantium is active, by whether execution succeeded. -/
inductive ReceiptOutcome where
  | postState (root : Hash)
  | status (succeeded : Bool)
  deriving DecidableEq

/-- The record of one transaction. -/
structure Receipt where
  outcome : ReceiptOutcome
  /-- Gas of the block up to and including the transaction. -/
  cumulativeGasUsed : U64
  bloom : Bloom := 0
  logs : List Log := []
  txHash : Hash := 0
  /-- The address of the contract that the transaction was to create. -/
  contractAddress : Option Address := none
  /-- Gas of the transaction alone. -/
  gasUsed : U64 := 0
  blockHash : Hash := 0
  blockNumber : U64 := 0
  transactionIndex : U64 := 0
  deriving DecidableEq

namespace Receipt

/-- A receipt without logs. The outcome is the root where there is one. -/
def new (root : Option Hash) (failed : Bool) (cumulativeGasUsed : U64) : Receipt where
  outcome := match root with
    | some r => .postState r
    | none => .status (!failed)
  cumulativeGasUsed

/-- The receipt with the given logs and the filter over them. -/
def setLogs (r : Receipt) (logs : List Log) : Receipt := { r with logs, bloom := .ofLogs logs }

/-- Whether the transaction succeeded; one that committed to a root counts as successful. -/
def succeeded (r : Receipt) : Bool := r.outcome != .status false

end Receipt

/-- The filter over all logs of the receipts, as a header commits to it. -/
def Bloom.ofReceipts (receipts : List Receipt) : Bloom := .ofLogs (receipts.flatMap (·.logs))

end TwinLedger
