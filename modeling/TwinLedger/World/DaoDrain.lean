import TwinLedger.Config.Chain
import TwinLedger.World.Basic

/-!
# The drain of the DAO fork

The one irregular change of the state: at the block of the fork, the balances of some accounts
move into a contract.
-/

namespace TwinLedger.World

/-- Moves the whole balance of one account. -/
def drainAccount (refundContract : Address) (w : World) (a : Address) : World :=
  (w.addBalance refundContract (w.balance a)).setBalance a 0

/-- Moves the balances of the listed accounts one after the other into the contract, which is
created if it does not exist. -/
def drain (w : World) (dao : DaoFork) : World :=
  let w := if w.exists? dao.refundContract then w else w.createAccount dao.refundContract
  dao.drainList.foldl (drainAccount dao.refundContract) w

end TwinLedger.World
