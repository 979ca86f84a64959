import TwinLedger.Chain.Receipt
import TwinLedger.Data.Hex

/-!
# Logs and receipts on one line

Where two receipts or two logs differ, the message shows them whole: a name, then the fields in
braces, each with its name. An absent value shows as `None`, a present one inside `Some(..)`.
-/

namespace TwinLedger

namespace Shown

/-- A value with named fields. -/
def record (name : String) (fields : List (String × String)) : String :=
  name ++ " \x7b " ++ ", ".intercalate (fields.map fun f => f.1 ++ ": " ++ f.2) ++ " \x7d"

def list (items : List String) : String := "[" ++ ", ".intercalate items ++ "]"

def option : Option String → String
  | some text => "Some(" ++ text ++ ")"
  | none => "None"

end Shown

def Log.shown (l : Log) : String :=
  Shown.record "Log"
    [("address", l.address.hex), ("topics", Shown.list (l.topics.map FixedBytes.hex)),
      ("data", l.data.hex), ("block_number", l.blockNumber.decimal), ("tx_hash", l.txHash.hex),
      ("tx_index", l.txIndex.decimal), ("block_hash", l.blockHash.hex),
      ("index", l.index.decimal)]

def ReceiptOutcome.shown : ReceiptOutcome → String
  | .postState root => "PostState(" ++ root.hex ++ ")"
  | .status succeeded => "Status(" ++ (if succeeded then "true" else "false") ++ ")"

def Receipt.shown (r : Receipt) : String :=
  Shown.record "Receipt"
    [("outcome", r.outcome.shown), ("cumulative_gas_used", r.cumulativeGasUsed.decimal),
      ("bloom", r.bloom.hex), ("logs", Shown.list (r.logs.map Log.shown)),
      ("tx_hash", r.txHash.hex),
      ("contract_address", Shown.option (r.contractAddress.map FixedBytes.hex)),
      ("gas_used", r.gasUsed.decimal), ("block_hash", r.blockHash.hex),
      ("block_number", r.blockNumber.decimal),
      ("transaction_index", r.transactionIndex.decimal)]

end TwinLedger
