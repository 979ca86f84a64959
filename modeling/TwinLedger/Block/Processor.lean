import TwinLedger.Block.Verifier
import TwinLedger.Chain.Block
import TwinLedger.Execution.Buffered
import TwinLedger.Execution.InPlace
import TwinLedger.World.DaoDrain

/-!
# Processing blocks

A block is processed by applying its transactions in order, each after both executors have agreed
on it, and then letting the consensus engine finish the block. The first transaction that is not
applied ends the processing.
-/

namespace TwinLedger

/-- The executors that the ledger comes with: the one that writes in place for reference, the
buffered one beside it. -/
def Executors.stock : Executors := ⟨InPlace.apply, Buffered.apply⟩

/-- What a transaction leaves behind: receipt and gas or the reason why not, the live values, and
the disk. -/
structure TransactionRun (σ : Type := World) where
  outcome : Except ProcessError (Receipt × U64)
  live : Live σ
  disk : Disk

/-- Applies a transaction to the live values, after a check of both executors if the
configuration asks for it. -/
def applyTransaction {σ : Type} [WorldState σ] (chain : Chain) (executors : Executors σ)
    (config : ExecutionConfig) (author : Option Address) (header : Header) (tx : Transaction)
    (live : Live σ) (disk : Disk) : Checked (TransactionRun σ) := do
  let (verdict, disk) ←
    if config.verificationEnabled then
      verify chain executors config.diagnostics author header tx live disk
    else .ok (.ok (), disk)
  match verdict with
  | .error e => .ok ⟨.error e, live, disk⟩
  | .ok () =>
    let applied ← applyWith chain (executors.at config.executor) author header tx live
    match applied.outcome with
    | .error r => .ok ⟨.error (.rejected r), applied.live, disk⟩
    | .ok done => .ok ⟨.ok done, applied.live, disk⟩

/-- What the consensus engine does to the world at the end of a block. -/
abbrev Engine := Chain → Header → World → List Transaction → List Header → World

/-- What a processed block yields. -/
structure ProcessOutput where
  /-- One for each transaction, in order. -/
  receipts : List Receipt
  /-- The logs of the receipts, in order. -/
  logs : List Log
  gasUsed : U64
  deriving DecidableEq

/-- What processing leaves behind. -/
structure BlockRun where
  outcome : Except ProcessError ProcessOutput
  world : World
  disk : Disk

/-- What the transactions of a block leave behind: the receipts, or the error of the first that
was not applied. -/
structure TransactionsRun where
  outcome : Except ProcessError (List Receipt)
  live : Live
  disk : Disk

/-- Applies transactions one after the other; the first has the given index. -/
def applyAll (chain : Chain) (executors : Executors) (config : ExecutionConfig) (header : Header) :
    Nat → List Transaction → Live → Disk → Checked TransactionsRun
  | _, [], live, disk => .ok ⟨.ok [], live, disk⟩
  | index, tx :: rest, live, disk => do
    let stamp : Stamp := ⟨tx.hash, header.hash, header.number, .wrap index⟩
    let prepared := { live with world := live.world.prepare stamp }
    let run ← applyTransaction chain executors config none header tx prepared disk
    match run.outcome with
    | .error e => .ok ⟨.error e, run.live, run.disk⟩
    | .ok (receipt, _) =>
      let later ← applyAll chain executors config header (index + 1) rest run.live run.disk
      .ok { later with outcome := later.outcome.map (receipt :: ·) }

/-- The world in which the first transaction of a block runs. -/
def openBlock (chain : Chain) (header : Header) (w : World) : World :=
  match chain.config.daoForkAt header.number with
  | some dao => w.drain dao
  | none => w

/-- Processes a block. -/
def process (chain : Chain) (engine : Engine) (executors : Executors) (config : ExecutionConfig)
    (block : Block) (w : World) (disk : Disk) : Checked BlockRun := do
  let start : Live := { world := openBlock chain block.header w, pool := ⟨block.gasLimit⟩ }
  let run ← applyAll chain executors config block.header 0 block.transactions start disk
  match run.outcome with
  | .error e => .ok ⟨.error e, run.live.world, run.disk⟩
  | .ok receipts =>
    let world := engine chain block.header run.live.world block.transactions block.uncles
    .ok ⟨.ok ⟨receipts, receipts.flatMap (·.logs), run.live.usedGas⟩, world, run.disk⟩

end TwinLedger
