import TwinLedger.Block.Processor

/-!
# Rewards

A consensus engine that pays fixed rewards at the end of a block: to the author of the block, to
the author of each uncle, and to the author of the block again for each transaction. A reward of
zero touches nobody.
-/

namespace TwinLedger

/-- The amounts paid. -/
structure Rewards where
  block : U256 := 0
  uncle : U256 := 0
  transaction : U256 := 0
  deriving DecidableEq

namespace Rewards

/-- Pays one reward. -/
def pay (w : World) (a : Address) (amount : U256) : World :=
  if amount = 0 then w else w.addBalance a amount

/-- The engine that pays the rewards. -/
def engine (r : Rewards) : Engine := fun chain header w transactions uncles =>
  let author := chain.author header
  let w := pay w author r.block
  let w := uncles.foldl (fun w uncle => pay w uncle.coinbase r.uncle) w
  transactions.foldl (fun w _ => pay w author r.transaction) w

end Rewards

end TwinLedger
