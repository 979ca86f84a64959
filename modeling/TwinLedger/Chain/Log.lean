import TwinLedger.Data.Bytes

/-!
# Logs

An event of a contract, and the stamp that says which transaction of which block emitted it. The
emitter gives address, topics and data; the stamp and the index are put on when the log enters
the world.
-/

namespace TwinLedger

/-- The transaction under way, as logs and receipts name it. -/
structure Stamp where
  txHash : Hash := 0
  blockHash : Hash := 0
  blockNumber : U64 := 0
  txIndex : U64 := 0
  deriving DecidableEq

/-- An event emitted during execution. -/
structure Log where
  /-- The account that emitted the event. -/
  address : Address := 0
  topics : List Hash := []
  data : Bytes := []
  blockNumber : U64 := 0
  txHash : Hash := 0
  txIndex : U64 := 0
  blockHash : Hash := 0
  /-- Position among the logs of the block. -/
  index : U64 := 0
  deriving DecidableEq

/-- The log with a stamp and an index put on. -/
def Log.stamped (l : Log) (s : Stamp) (index : U64) : Log :=
  { l with
    blockNumber := s.blockNumber
    txHash := s.txHash
    txIndex := s.txIndex
    blockHash := s.blockHash
    index }

end TwinLedger
