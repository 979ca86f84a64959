import TwinLedger.Block.Error
import TwinLedger.Chain.Receipt
import TwinLedger.World.Journal

/-!
# Applying one transaction

The sender is resolved, the message executed, the world finalised, and the outcome recorded in a
receipt. From Byzantium on the receipt holds a status, before it the root of the finalised world.
-/

namespace TwinLedger

/-- The chain that blocks are processed on. -/
structure Chain where
  config : ChainConfig
  /-- Who earns the fees of a block. -/
  author : Header → Address := Header.coinbase

/-- What the transactions of a block change: the world, the gas that may still be bought, and the
gas used so far. -/
structure Live (σ : Type := World) where
  world : σ
  pool : GasPool
  usedGas : U64 := 0
  deriving DecidableEq

/-- What came of a transaction: a receipt and the gas used, or the reason why not, and the values
as the executor left them. -/
structure Applied (σ : Type := World) where
  outcome : Except Rejection (Receipt × U64)
  live : Live σ

/-- The receipt of a message that was included. The world is the finalised one. -/
def Receipt.ofExecution (header : Header) (tx : Transaction) (message : Message) (rules : Rules)
    (world : World) (result : ExecutionResult) (usedGas : U64) : Receipt :=
  let root := if rules.byzantium then none else some world.root
  { (Receipt.new root result.failed usedGas).setLogs (world.logsOf tx.hash) with
    txHash := tx.hash
    contractAddress :=
      if message.isCreation then some (Address.ofCreation message.sender tx.nonce) else none
    gasUsed := result.gasUsed
    blockHash := world.stamp.blockHash
    blockNumber := header.number
    transactionIndex := world.stamp.txIndex }

/-- The same values with an independent copy of the world. -/
def Live.copy {σ : Type} [WorldState σ] (live : Live σ) : Live σ :=
  { live with world := WorldState.copy live.world }

theorem Live.copy_world (live : Live) : live.copy = live := rfl

/-- Applies a transaction with one executor. An author given here goes before that of the
chain. -/
def applyWith {σ : Type} [WorldState σ] (chain : Chain) (executor : Executor σ)
    (author : Option Address) (header : Header) (tx : Transaction) (live : Live σ) :
    Checked (Applied σ) :=
  match (Signer.forBlock chain.config header.number).asMessage tx with
  | .error e => .ok ⟨.error (.sender e), live⟩
  | .ok message => do
    let coinbase := author.getD (chain.author header)
    let ctx := BlockContext.ofHeader message header coinbase chain.config
    let x ← executor ctx message live.world live.pool
    match x.result with
    | .error e => .ok ⟨.error (.execution e), { live with world := x.world, pool := x.pool }⟩
    | .ok result =>
      let world := WorldState.finalise x.world ctx.rules.eip158
      let usedGas ← live.usedGas.add result.gasUsed
      let receipt := Receipt.ofExecution header tx message ctx.rules (WorldState.contents world)
        result usedGas
      .ok ⟨.ok (receipt, result.gasUsed), ⟨world, x.pool, usedGas⟩⟩

end TwinLedger
