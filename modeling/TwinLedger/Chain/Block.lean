import TwinLedger.Chain.Header
import TwinLedger.Chain.Transaction

/-!
# Blocks
-/

namespace TwinLedger

/-- A header, the transactions in order, and the headers of the uncles. -/
structure Block where
  header : Header := {}
  transactions : List Transaction := []
  uncles : List Header := []
  deriving DecidableEq

namespace Block

/-- The name of the block is that of its header. -/
def hash (b : Block) : Hash := b.header.hash

def number (b : Block) : U64 := b.header.number

def gasLimit (b : Block) : U64 := b.header.gasLimit

end Block

end TwinLedger
