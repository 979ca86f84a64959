import TwinLedger.Proofs.Block.Verdict
import TwinLedger.Proofs.Execution.Agreement

/-!
# What the configuration does not change

A configuration says which executor the live values go through, whether the other one is run
beside it, and where a bundle is written when they disagree. With the executors that the ledger
comes with none of this shows in what a block does.

`Direct` is block processing without configuration and without disk: one executor, no check, and
no error but a rejected transaction. What is proved is

> `process_of_same`: where both seats hold the same executor, processing a block is processing it
> directly, whatever the configuration, and the disk stays as it was.

The step is one transaction (`applyTransaction_of_same`), where the check runs the executor twice
on the same values and compares two equal outcomes; the run is an induction over the transactions.
The two executors of the ledger are the same function, so the theorem speaks about them.
-/

namespace TwinLedger

namespace Direct

/-- Applies transactions one after the other through one executor; the first has the given
index. -/
def applyAll (chain : Chain) (executor : Executor) (header : Header) :
    Nat → List Transaction → Live → Checked (Except Rejection (List Receipt) × Live)
  | _, [], live => .ok (.ok [], live)
  | index, tx :: rest, live => do
    let stamp : Stamp := ⟨tx.hash, header.hash, header.number, .wrap index⟩
    let applied ← applyWith chain executor none header tx
      { live with world := live.world.prepare stamp }
    match applied.outcome with
    | .error r => .ok (.error r, applied.live)
    | .ok (receipt, _) =>
      let later ← applyAll chain executor header (index + 1) rest applied.live
      .ok (later.1.map (receipt :: ·), later.2)

/-- Processes a block through one executor. -/
def process (chain : Chain) (engine : Engine) (executor : Executor) (block : Block) (w : World) :
    Checked (Except Rejection ProcessOutput × World) := do
  let run ← applyAll chain executor block.header 0 block.transactions
    { world := openBlock chain block.header w, pool := ⟨block.gasLimit⟩ }
  match run.1 with
  | .error r => .ok (.error r, run.2.world)
  | .ok receipts =>
    .ok (.ok ⟨receipts, receipts.flatMap (·.logs), run.2.usedGas⟩,
      engine chain block.header run.2.world block.transactions block.uncles)

end Direct

/-- Naming the reason of a failure does not touch a result. -/
theorem Rejection.mapError_ok {α : Type} (a : α) :
    (Except.ok a).mapError ProcessError.rejected = .ok a := rfl

/-! ## One transaction -/

section

variable (chain : Chain) (executor : Executor)

/-- With one executor in both seats a transaction goes through it, checked or not. -/
theorem applyTransaction_of_same (config : ExecutionConfig) (author : Option Address)
    (header : Header) (tx : Transaction) (live : Live) (disk : Disk) :
    applyTransaction chain ⟨executor, executor⟩ config author header tx live disk =
      (applyWith chain executor author header tx live).map fun applied =>
        ⟨applied.outcome.mapError .rejected, applied.live, disk⟩ := by
  have hat : Executors.at ⟨executor, executor⟩ config.executor = executor := by
    cases config.executor <;> rfl
  let executors : Executors := ⟨executor, executor⟩
  cases h : applyWith chain executor author header tx live with
  | error e =>
    -- The check stops where the executor stops.
    unfold applyTransaction verify
    simp only
    rw [hat, Live.copy_world, h]
    cases config.verificationEnabled <;> rfl
  | ok applied =>
    have hleft : applyWith chain executors.alternate author header tx live.copy = .ok applied := h
    have hright : applyWith chain executors.reference author header tx live.copy = .ok applied := h
    rw [applyTransaction_of_accepted
      (verify_of_agree hleft hright (disagreement?_self _ applied) config.diagnostics disk), hat, h]

/-! ## Blocks -/

/-- The transactions of a block, checked or not. -/
theorem applyAll_of_same (config : ExecutionConfig) (header : Header) (index : Nat)
    (txs : List Transaction) (live : Live) (disk : Disk) :
    applyAll chain ⟨executor, executor⟩ config header index txs live disk =
      (Direct.applyAll chain executor header index txs live).map fun run =>
        ⟨run.1.mapError .rejected, run.2, disk⟩ := by
  induction txs generalizing index live with
  | nil => rfl
  | cons tx rest ih =>
    unfold applyAll Direct.applyAll
    simp only
    rw [applyTransaction_of_same]
    cases applyWith chain executor none header tx
        { live with world := live.world.prepare ⟨tx.hash, header.hash, header.number, .wrap index⟩ }
      with
    | error e => rfl
    | ok applied =>
      obtain ⟨outcome, live'⟩ := applied
      cases outcome with
      | error r => rfl
      | ok done =>
        simp only [Except.map, Rejection.mapError_ok, bind, Except.bind]
        -- The disk that the check hands on is the one it was given.
        rw [ih]
        cases Direct.applyAll chain executor header (index + 1) rest live' with
        | error e => rfl
        | ok later =>
          obtain ⟨result, live''⟩ := later
          cases result <;> rfl

/-- A block, checked or not. -/
theorem process_of_same (engine : Engine) (config : ExecutionConfig) (block : Block) (w : World)
    (disk : Disk) :
    process chain engine ⟨executor, executor⟩ config block w disk =
      (Direct.process chain engine executor block w).map fun run =>
        ⟨run.1.mapError .rejected, run.2, disk⟩ := by
  unfold process Direct.process
  simp only
  rw [applyAll_of_same]
  cases Direct.applyAll chain executor block.header 0 block.transactions
      { world := openBlock chain block.header w, pool := ⟨block.gasLimit⟩ } with
  | error e => rfl
  | ok run =>
    obtain ⟨result, live⟩ := run
    cases result <;> rfl

end

/-! ## The executors of the ledger -/

/-- There is one run of a block, the same for every configuration and every disk: one result,
which fails only with a rejected transaction, one world, also after a failure in the middle of the
block, and a disk that is as it was. -/
theorem process_stock (chain : Chain) (engine : Engine) (block : Block) (w : World) :
    ∃ run : Checked (Except Rejection ProcessOutput × World),
      ∀ (config : ExecutionConfig) (disk : Disk),
        process chain engine .stock config block w disk =
          run.map fun done => ⟨done.1.mapError .rejected, done.2, disk⟩ := by
  refine ⟨Direct.process chain engine InPlace.apply block w, ?_⟩
  intro config disk
  rw [Executors.stock_eq]
  exact process_of_same chain InPlace.apply engine config block w disk

end TwinLedger
