import TwinLedger.Proofs.Block.Run
import TwinLedger.Proofs.Execution.Ledger

/-!
# Money is neither made nor lost

The balances of a block move between accounts and nowhere else:

> `process_conserves_funds`: the sum of all balances is the same after a block as before it, however
> the block ends.

A credit that does not fit would lose money. That none does follows from the sum itself: the
balances add up to a word at the start, each step keeps the sum, so that whatever is taken from one
account fits into any other. A message takes the price of its gas limit from the sender, moves the
value, and pays the same price out again in two parts, one to the sender and one to the author;
the parts add up because the whole was a product without overflow (`Included.totalBalance`).
-/

namespace TwinLedger

open World

/-! ## Blocks -/

theorem Inclusion.totalBalance {chain : Chain} {header : Header} {index : Nat} {tx : Transaction}
    {before after : Live} {m : Message} {x : Execution} {r : ExecutionResult} {receipt : Receipt}
    (h : Inclusion chain header index tx before m x r receipt after)
    (hfunds : before.world.totalBalance < Word.range 256) :
    after.world.totalBalance = before.world.totalBalance := by
  obtain ⟨a, v, left, hincluded⟩ := h.included
  rw [h.world, totalBalance_finalise]
  exact hincluded.totalBalance hfunds

theorem Passage.totalBalance {chain : Chain} {header : Header} {index : Nat}
    {txs : List Transaction} {before after : Live} {receipts : List Receipt}
    (h : Passage chain header index txs before receipts after)
    (hfunds : before.world.totalBalance < Word.range 256) :
    after.world.totalBalance = before.world.totalBalance := by
  refine h.invariant (P := fun v => v.totalBalance = before.world.totalBalance) ?_ rfl
  intro index tx mid m x r receipt next hinclusion hmid
  rw [hinclusion.totalBalance (by rw [hmid]; exact hfunds), hmid]

/-- The drain at the start of a block moves money too. -/
theorem totalBalance_openBlock {chain : Chain} {header : Header} {w : World}
    (hdao : ∀ dao, chain.config.daoForkAt header.number = some dao →
      dao.refundContract ∉ dao.drainList)
    (hfunds : w.totalBalance < Word.range 256) :
    (openBlock chain header w).totalBalance = w.totalBalance := by
  unfold openBlock
  split
  · next dao hfork => exact totalBalance_drain (hdao dao hfork) hfunds
  · rfl

/-- A block keeps the sum of all balances, whether it is processed to the end or not, if all the
money is a word and the drain does not empty the account that it fills. -/
theorem process_conserves_funds {chain : Chain} {config : ExecutionConfig} {block : Block}
    {w : World} {disk : Disk} {run : BlockRun}
    (hdao : ∀ dao, chain.config.daoForkAt block.header.number = some dao →
      dao.refundContract ∉ dao.drainList)
    (hfunds : w.totalBalance < Word.range 256)
    (h : process chain .idle .stock config block w disk = .ok run) :
    run.world.totalBalance = w.totalBalance := by
  have hopen : (Live.atStart chain block w).world.totalBalance = w.totalBalance :=
    totalBalance_openBlock hdao hfunds
  have hfunds' : (Live.atStart chain block w).world.totalBalance < Word.range 256 := by
    rw [hopen]
    exact hfunds
  obtain ⟨_, _, _, live, stamp, hpassage, hworld⟩ := passage_of_process runUpTo_zero rfl h
  rw [hworld, ← hopen]
  exact hpassage.totalBalance hfunds'

/-- A block with a drain, a call and a creation, over a world with nothing but a million and
eight. -/
theorem process_conserves_funds_drain :
    ∃ run, process drainChain .idle .stock uncheckedConfig drainBlock drainWorld {} = .ok run ∧
      run.world.totalBalance = 1000008 := by
  obtain ⟨run, output, hrun, _⟩ := exists_drainOutput
  have htotal : drainWorld.totalBalance = 1000008 := by decide +kernel
  refine ⟨run, hrun, ?_⟩
  rw [← htotal]
  exact process_conserves_funds
    (by
      intro dao hfork
      cases hfork
      decide)
    (by rw [htotal]; decide) hrun

end TwinLedger
