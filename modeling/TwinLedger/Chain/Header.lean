import TwinLedger.Hash.Keccak
import TwinLedger.Rlp

/-!
# Headers

What execution sees of a block, and the hash that names the block.
-/

namespace TwinLedger

/-- The metadata of a block. -/
structure Header where
  parentHash : Hash := 0
  /-- Earns the fees unless the chain names another author. -/
  coinbase : Address := 0
  number : U64 := 0
  gasLimit : U64 := 0
  gasUsed : U64 := 0
  /-- Seconds of Unix time. -/
  timestamp : U64 := 0
  extraData : Bytes := []
  deriving DecidableEq

/-- The name of the block: the hash of all fields of its header. -/
def Header.hash (h : Header) : Hash :=
  keccak256 <| Rlp.encodeList
    [.ofFixed h.parentHash, .ofFixed h.coinbase, .ofWord h.number, .ofWord h.gasLimit,
      .ofWord h.gasUsed, .ofWord h.timestamp, .string h.extraData]

end TwinLedger
