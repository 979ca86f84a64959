import TwinLedger.Proofs.Block.Run
import TwinLedger.Proofs.Execution.Totality

/-!
# The gas of a block

The gas limit of a block is its stock. A transaction takes its whole gas limit out of the pool and
puts back what it did not use, and what it used is also counted. So at any time

> gas in the pool + gas used so far = gas limit of the block,

and since the right side is a word, no sum on the way leaves the range of one: the pool is never
filled above its range, where it would stop, and the count never overflows, which would end the
computation.

`Charged` is the step, for one transaction that was included; over a passage the sums follow
(`Passage.pool_eq`, `Passage.usedGas_eq`). With the balance of gas kept and data that is not too
long for its deposit, every block gets an answer (`exists_applyAll`), so that what is said about the
values before and after each transaction is said about all of them.
-/

namespace TwinLedger

/-- The gas that the transactions of some receipts have used. -/
def gasOf : List Receipt → Nat
  | [] => 0
  | receipt :: rest => receipt.gasUsed.toNat + gasOf rest

theorem gasOf_append (early late : List Receipt) :
    gasOf (early ++ late) = gasOf early + gasOf late := by
  induction early with
  | nil => exact (Nat.zero_add _).symm
  | cons receipt rest ih => rw [List.cons_append, gasOf, gasOf, ih, Nat.add_assoc]

/-- The gas due for a transaction before its execution, if that is a word. -/
def Chain.intrinsic? (chain : Chain) (header : Header) (tx : Transaction) : Option U64 :=
  Gas.intrinsic? tx.input tx.isCreation (chain.config.isHomestead header.number)

/-- Something is due for every transaction. -/
theorem Chain.transaction_le_intrinsic {chain : Chain} {header : Header} {tx : Transaction}
    {intrinsic : U64} (h : chain.intrinsic? header tx = some intrinsic) :
    Gas.transaction ≤ intrinsic.toNat := by
  have hsum := Word.ofNat?_eq_some_iff.1 h
  have hbase : Gas.transaction ≤
      if tx.isCreation && chain.config.isHomestead header.number then Gas.creation
      else Gas.transaction := by
    split <;> decide
  omega

/-! ## One transaction -/

/-- What a transaction that was included did to the gas of its block. -/
structure Charged (chain : Chain) (header : Header) (tx : Transaction) (before : Live)
    (receipt : Receipt) (after : Live) : Prop where
  gasUsed_le : receipt.gasUsed ≤ tx.gasLimit
  /-- A refund takes at most half off. -/
  intrinsic_le : ∃ intrinsic, chain.intrinsic? header tx = some intrinsic ∧
    intrinsic.toNat ≤ 2 * receipt.gasUsed.toNat
  /-- The gas limit was bought, and the pool had room for what came back. -/
  pool : ∃ rest, before.pool.sub tx.gasLimit = .ok rest ∧
    rest.gas.toNat + (tx.gasLimit.satSub receipt.gasUsed).toNat < Word.range 64 ∧
    after.pool = rest.add (tx.gasLimit.satSub receipt.gasUsed)
  /-- The gas used could be counted. -/
  usedGas : before.usedGas.toNat + receipt.gasUsed.toNat = after.usedGas.toNat
  cumulative : receipt.cumulativeGasUsed = after.usedGas

namespace Charged

variable {chain : Chain} {header : Header} {tx : Transaction} {before after : Live}
  {receipt : Receipt}

theorem of_inclusion {index : Nat} {m : Message} {x : Execution} {r : ExecutionResult}
    (h : Inclusion chain header index tx before m x r receipt after) :
    Charged chain header tx before receipt after := by
  obtain ⟨a, v, left, hincluded⟩ := h.included
  have hm := (message_of_asMessage h.message).2
  have hlimit : m.gasLimit = tx.gasLimit := by rw [hm]; rfl
  have hgasUsed : receipt.gasUsed = r.gasUsed := by rw [h.receipt]; rfl
  have hsplit : receipt.gasUsed.toNat + left.toNat = tx.gasLimit.toNat := by
    rw [hgasUsed, ← hlimit]
    exact hincluded.gas
  have hintrinsic : chain.intrinsic? header tx = some a.intrinsic := by
    have hdue := hincluded.admitted.intrinsic
    rw [hm] at hdue
    exact hdue
  have hbought : before.pool.sub tx.gasLimit = .ok a.pool := by
    rw [← hlimit]
    exact hincluded.admitted.pool
  have hleft : left = tx.gasLimit.satSub receipt.gasUsed := by
    apply Word.toNat_inj.1
    rw [Word.toNat_satSub]
    omega
  obtain ⟨hle, hrest⟩ := GasPool.toNat_sub hbought
  have hroom : a.pool.gas.toNat + left.toNat < Word.range 64 := by
    have := before.pool.gas.isLt
    omega
  refine ⟨Word.le_iff.2 (by omega), ⟨a.intrinsic, hintrinsic, ?_⟩, ⟨a.pool, hbought, ?_, ?_⟩, ?_,
    ?_⟩
  · rw [hgasUsed]
    exact hincluded.intrinsic_le
  · rw [← hleft]
    exact hroom
  · rw [← hleft, h.pool, hincluded.pool]
  · rw [hgasUsed]
    exact (Word.checked_eq_ok_iff.1 h.usedGas).symm
  · rw [h.receipt]
    rfl

/-- The gas limit was in the pool. -/
theorem gasLimit_le (h : Charged chain header tx before receipt after) :
    tx.gasLimit.toNat ≤ before.pool.gas.toNat := by
  obtain ⟨rest, hbought, _, _⟩ := h.pool
  exact (GasPool.toNat_sub hbought).1

/-- What was used is what is missing from the pool. -/
theorem pool_eq (h : Charged chain header tx before receipt after) :
    after.pool.gas.toNat + receipt.gasUsed.toNat = before.pool.gas.toNat := by
  obtain ⟨rest, hbought, hroom, hpool⟩ := h.pool
  obtain ⟨hle, hrest⟩ := GasPool.toNat_sub hbought
  have hused : receipt.gasUsed.toNat ≤ tx.gasLimit.toNat := h.gasUsed_le
  rw [hpool, GasPool.toNat_add hroom, Word.toNat_satSub]
  omega

/-- Every transaction uses gas. -/
theorem gasUsed_pos (h : Charged chain header tx before receipt after) :
    0 < receipt.gasUsed.toNat := by
  obtain ⟨intrinsic, hdue, hhalf⟩ := h.intrinsic_le
  have hbase := Chain.transaction_le_intrinsic hdue
  unfold Gas.transaction at hbase
  omega

end Charged

/-! ## One transaction after the other -/

namespace Passage

variable {chain : Chain} {header : Header} {index : Nat} {txs : List Transaction}
  {before after : Live} {receipts : List Receipt}

/-- What was used is what is missing from the pool. -/
theorem pool_eq (h : Passage chain header index txs before receipts after) :
    after.pool.gas.toNat + gasOf receipts = before.pool.gas.toNat := by
  induction h with
  | done index live => rfl
  | next first _ ih =>
    have hstep := (Charged.of_inclusion first).pool_eq
    rw [gasOf]
    omega

/-- What was used has been counted. -/
theorem usedGas_eq (h : Passage chain header index txs before receipts after) :
    after.usedGas.toNat = before.usedGas.toNat + gasOf receipts := by
  induction h with
  | done index live => rfl
  | next first _ ih =>
    have hstep := (Charged.of_inclusion first).usedGas
    rw [gasOf]
    omega

/-- A passage comes by each of its transactions with the gas that those in front have left. -/
theorem exists_charged {i : Nat} {tx : Transaction} {receipt : Receipt}
    (h : Passage chain header index txs before receipts after) (htx : txs[i]? = some tx)
    (hreceipt : receipts[i]? = some receipt) :
    ∃ mid next, Charged chain header tx mid receipt next ∧
      mid.pool.gas.toNat + gasOf (receipts.take i) = before.pool.gas.toNat ∧
      receipt.cumulativeGasUsed.toNat =
        before.usedGas.toNat + gasOf (receipts.take (i + 1)) := by
  obtain ⟨mid, m, x, r, next, hfront, hinclusion⟩ := h.exists_inclusion htx hreceipt
  have hcharged := Charged.of_inclusion hinclusion
  have hone : gasOf [receipt] = receipt.gasUsed.toNat := Nat.add_zero _
  refine ⟨mid, next, hcharged, hfront.pool_eq, ?_⟩
  rw [hcharged.cumulative, ← hcharged.usedGas, hfront.usedGas_eq, List.take_add_one, hreceipt,
    gasOf_append, Option.toList_some, hone, Nat.add_assoc]

/-- The count stands where the last receipt says. -/
theorem usedGas_eq_last (h : Passage chain header index txs before receipts after) :
    after.usedGas = (receipts.getLast?.map (·.cumulativeGasUsed)).getD before.usedGas := by
  induction h with
  | done index live => rfl
  | @next index tx rest before mid after m x r receipt receipts first later ih =>
    have hcount := (Charged.of_inclusion first).cumulative
    rw [ih, List.getLast?_cons]
    cases receipts.getLast? with
    | none => exact hcount.symm
    | some last => rfl

/-- The count of gas goes up with every receipt. -/
theorem increasing (h : Passage chain header index txs before receipts after) :
    (before.usedGas :: receipts.map (·.cumulativeGasUsed)).Pairwise (· < ·) := by
  induction h with
  | done index live => exact List.pairwise_singleton _ _
  | @next index tx rest before mid after m x r receipt receipts first later ih =>
    have hcharged := Charged.of_inclusion first
    have hcount := hcharged.usedGas
    have hpos := hcharged.gasUsed_pos
    have hfirst : before.usedGas < mid.usedGas := Word.lt_iff.2 (by omega)
    rw [List.map_cons, hcharged.cumulative]
    refine List.pairwise_cons.2 ⟨?_, ih⟩
    intro count hcount
    rcases List.mem_cons.1 hcount with rfl | hlater
    · exact hfirst
    · exact Nat.lt_trans hfirst ((List.pairwise_cons.1 ih).1 count hlater)

end Passage

/-! ## Every block has an answer -/

/-- One transaction is applied, if its data is not too long and the count has room for the whole
pool. -/
theorem exists_applyWith (chain : Chain) (header : Header) (tx : Transaction) (live : Live)
    (hinput : Gas.codeByte * tx.input.length < Word.range 64)
    (hroom : live.usedGas.toNat + live.pool.gas.toNat < Word.range 64) :
    ∃ applied, applyWith chain InPlace.apply none header tx live = .ok applied := by
  unfold applyWith
  cases hmessage : (Signer.forBlock chain.config header.number).asMessage tx with
  | error e => exact ⟨_, rfl⟩
  | ok m =>
    have hm := (message_of_asMessage hmessage).2
    have hdata : Gas.codeByte * m.data.length < Word.range 64 := by
      rw [hm]
      exact hinput
    obtain ⟨x, hx⟩ := InPlace.exists_apply hdata (chain.context header m) live.world live.pool
    have hx' : InPlace.apply (BlockContext.ofHeader m header (chain.author header) chain.config) m
        live.world live.pool = .ok x := hx
    simp only [bind, Except.bind, Option.getD_none, hx']
    cases hresult : x.result with
    | error e => exact ⟨_, rfl⟩
    | ok r =>
      have hcount : ∃ usedGas, live.usedGas.add r.gasUsed = .ok usedGas := by
        rcases InPlace.apply_cases hx with ⟨e, rfl⟩ | ⟨a, v, left, r', hincluded⟩
        · cases hresult
        · have hr : r' = r := Except.ok.inj (hincluded.result.symm.trans hresult)
          have hsplit := hincluded.gas
          have hlimit := (GasPool.toNat_sub hincluded.admitted.pool).1
          rw [hr] at hsplit
          exact ⟨_, Word.add_of_lt (by omega)⟩
      obtain ⟨usedGas, hused⟩ := hcount
      simp only [hused]
      exact ⟨_, rfl⟩

/-- A run of transactions comes to an end: what they take from the pool, the count has room for. -/
theorem Direct.exists_applyAll (chain : Chain) (header : Header) {txs : List Transaction}
    (hinputs : ∀ tx ∈ txs, Gas.codeByte * tx.input.length < Word.range 64) (index : Nat)
    {live : Live} (hroom : live.usedGas.toNat + live.pool.gas.toNat < Word.range 64) :
    ∃ run, Direct.applyAll chain InPlace.apply header index txs live = .ok run := by
  induction txs generalizing index live with
  | nil => exact ⟨_, rfl⟩
  | cons tx rest ih =>
    obtain ⟨applied, happlied⟩ := exists_applyWith chain header tx (live.stamped header index tx)
      (hinputs tx List.mem_cons_self) hroom
    rw [applyAll_cons, happlied]
    rcases applyWith_cases happlied with ⟨e, rfl⟩ | ⟨m, x, r, receipt, mid, rfl, hfirst⟩
    · exact ⟨_, rfl⟩
    · have hcharged := Charged.of_inclusion hfirst
      have hpool := hcharged.pool_eq
      have hused := hcharged.usedGas
      have hroom' : mid.usedGas.toNat + mid.pool.gas.toNat < Word.range 64 := by
        have : live.usedGas.toNat + live.pool.gas.toNat < Word.range 64 := hroom
        omega
      obtain ⟨later, hlater⟩ :=
        ih (fun t ht => hinputs t (List.mem_cons_of_mem tx ht)) (index + 1) hroom'
      simp only [bind, Except.bind, hlater]
      exact ⟨_, rfl⟩

section

variable (chain : Chain) (engine : Engine) (config : ExecutionConfig) {block : Block} (w : World)
  (disk : Disk)
  (hinputs : ∀ tx ∈ block.transactions, Gas.codeByte * tx.input.length < Word.range 64)

include hinputs

theorem exists_runUpTo (i : Nat) :
    ∃ before, runUpTo chain .stock config block w disk i = .ok before := by
  have hroom : (Live.atStart chain block w).usedGas.toNat +
      (Live.atStart chain block w).pool.gas.toNat < Word.range 64 := by
    show 0 + block.gasLimit.toNat < _
    rw [Nat.zero_add]
    exact block.gasLimit.isLt
  obtain ⟨run, hrun⟩ := Direct.exists_applyAll chain block.header
    (fun tx htx => hinputs tx (List.mem_of_mem_take htx)) 0 hroom
  rw [runUpTo_stock, hrun]
  exact ⟨_, rfl⟩

/-- A block is processed, if the data of its transactions is not too long. -/
theorem exists_process :
    ∃ run, process chain engine .stock config block w disk = .ok run := by
  obtain ⟨all, hall⟩ := exists_runUpTo chain config w disk hinputs block.transactions.length
  rw [process_eq_runUpTo .stock (Nat.le_refl _), hall]
  simp only [bind, Except.bind]
  split <;> exact ⟨_, rfl⟩

end

/-! ## The accounts of a block -/

/-- What the output of a block says about gas. -/
structure GasAccounts (chain : Chain) (block : Block) (output : ProcessOutput) : Prop where
  length_eq : output.receipts.length = block.transactions.length
  /-- Each receipt tells the gas of its transaction and of all up to it. -/
  receipts : ∀ i tx receipt, block.transactions[i]? = some tx →
    output.receipts[i]? = some receipt →
    receipt.cumulativeGasUsed.toNat = gasOf (output.receipts.take (i + 1)) ∧
    receipt.gasUsed ≤ tx.gasLimit ∧
    (∃ intrinsic, chain.intrinsic? block.header tx = some intrinsic ∧
      intrinsic.toNat ≤ 2 * receipt.gasUsed.toNat) ∧
    tx.gasLimit.toNat + gasOf (output.receipts.take i) ≤ block.gasLimit.toNat
  increasing : (output.receipts.map (·.cumulativeGasUsed)).Pairwise (· < ·)
  /-- The total is the last count, nothing where there is none. -/
  gasUsed : output.gasUsed = (output.receipts.getLast?.map (·.cumulativeGasUsed)).getD 0
  gasUsed_le : output.gasUsed ≤ block.gasLimit

/-- What happened to the gas of a block between two transactions: the one between them was charged,
or it was rejected, and then no gas moved. -/
def GasStep (chain : Chain) (header : Header) (tx : Transaction) (early : List Receipt)
    (before after : TransactionsRun) : Prop :=
  (∃ receipt, after.outcome = .ok (early ++ [receipt]) ∧
    Charged chain header tx before.live receipt after.live) ∨
  ∃ e, after.outcome = .error e ∧ after.live.pool = before.live.pool ∧
    after.live.usedGas = before.live.usedGas

section

variable {chain : Chain} {engine : Engine} {config : ExecutionConfig} {block : Block} {w : World}
  {disk : Disk}

theorem gasStep_of_runUpTo {i : Nat} {tx : Transaction} {before after : TransactionsRun}
    {early : List Receipt} (htx : block.transactions[i]? = some tx)
    (hbefore : runUpTo chain .stock config block w disk i = .ok before)
    (hearly : before.outcome = .ok early)
    (hafter : runUpTo chain .stock config block w disk (i + 1) = .ok after) :
    GasStep chain block.header tx early before after := by
  rcases runUpTo_succ htx hbefore hearly hafter with
    ⟨m, x, r, receipt, houtcome, hinclusion⟩ | ⟨e, houtcome, hlive⟩
  · exact Or.inl ⟨receipt, houtcome, .of_inclusion hinclusion⟩
  · exact Or.inr ⟨e, houtcome, by rw [hlive]; rfl, by rw [hlive]; rfl⟩

theorem gasAccounts_of_process {run : BlockRun} {output : ProcessOutput}
    (h : process chain engine .stock config block w disk = .ok run)
    (houtput : run.outcome = .ok output) : GasAccounts chain block output := by
  rcases process_cases h with
    ⟨receipts, live, hpassage, hok, _⟩ | ⟨_, _, _, _, _, _, _, _, herror, _⟩
  · cases houtput.symm.trans hok
    have hpool : live.pool.gas.toNat + gasOf receipts = block.gasLimit.toNat := hpassage.pool_eq
    have hused : live.usedGas.toNat = 0 + gasOf receipts := hpassage.usedGas_eq
    refine ⟨hpassage.length_eq, ?_, (List.pairwise_cons.1 hpassage.increasing).2, ?_, ?_⟩
    · intro i tx receipt htx hreceipt
      obtain ⟨mid, next, hcharged, hleft, hcount⟩ := hpassage.exists_charged htx hreceipt
      have hleft : mid.pool.gas.toNat + gasOf (receipts.take i) = block.gasLimit.toNat := hleft
      have hcount : receipt.cumulativeGasUsed.toNat = 0 + gasOf (receipts.take (i + 1)) := hcount
      have hlimit := hcharged.gasLimit_le
      refine ⟨by rw [hcount, Nat.zero_add], hcharged.gasUsed_le, hcharged.intrinsic_le, ?_⟩
      simp only
      omega
    · exact hpassage.usedGas_eq_last
    · apply Word.le_iff.2
      simp only
      omega
  · cases houtput.symm.trans herror

end

/-- Whatever the configuration of the chain and of the run, the gas of a block is accounted for.
Before each transaction the pool holds the gas limit less what the transactions so far have used,
which is also what has been counted. The transaction is then charged without a sum leaving its
range, or it is rejected and no gas moves. So the block has an answer, and if all transactions were
included, its receipts are those seen on the way, and they add up. -/
theorem process_accounts_gas (chain : Chain) (engine : Engine) (config : ExecutionConfig)
    (block : Block) (w : World) (disk : Disk)
    (hinputs : ∀ tx ∈ block.transactions, Gas.codeByte * tx.input.length < Word.range 64) :
    (∀ i, ∃ before, runUpTo chain .stock config block w disk i = .ok before ∧
      ∀ early, before.outcome = .ok early →
        before.live.pool.gas.toNat + gasOf early = block.gasLimit.toNat ∧
        before.live.usedGas.toNat = gasOf early ∧
        ∀ tx, block.transactions[i]? = some tx →
          ∃ after, runUpTo chain .stock config block w disk (i + 1) = .ok after ∧
            GasStep chain block.header tx early before after) ∧
    ∃ run, process chain engine .stock config block w disk = .ok run ∧
      ∀ output, run.outcome = .ok output →
        GasAccounts chain block output ∧
        ∀ i before, runUpTo chain .stock config block w disk i = .ok before →
          before.outcome = .ok (output.receipts.take i) := by
  refine ⟨?_, ?_⟩
  · intro i
    obtain ⟨before, hbefore⟩ := exists_runUpTo chain config w disk hinputs i
    refine ⟨before, hbefore, ?_⟩
    intro early hearly
    have hpassage := passage_of_runUpTo hbefore hearly
    have hused : before.live.usedGas.toNat = 0 + gasOf early := hpassage.usedGas_eq
    refine ⟨hpassage.pool_eq, by rw [hused, Nat.zero_add], ?_⟩
    intro tx htx
    obtain ⟨after, hafter⟩ := exists_runUpTo chain config w disk hinputs (i + 1)
    exact ⟨after, hafter, gasStep_of_runUpTo htx hbefore hearly hafter⟩
  · obtain ⟨run, hrun⟩ := exists_process chain engine config w disk hinputs
    refine ⟨run, hrun, ?_⟩
    intro output houtput
    exact ⟨gasAccounts_of_process hrun houtput, fun i before => outcome_of_runUpTo hrun houtput⟩

/-- A block of which all transactions are included. -/
theorem process_accounts_gas_drain :
    ∃ run output, process drainChain .idle .stock uncheckedConfig drainBlock drainWorld {} =
        .ok run ∧
      run.outcome = .ok output ∧ output.receipts.length = 2 ∧
      GasAccounts drainChain drainBlock output := by
  obtain ⟨run, output, hrun, houtput⟩ := exists_drainOutput
  obtain ⟨_, run', hrun', hall⟩ := process_accounts_gas drainChain .idle uncheckedConfig drainBlock
    drainWorld {} (by decide)
  have hsame : run' = run := Except.ok.inj (hrun'.symm.trans hrun)
  rw [hsame] at hall
  have haccounts := (hall output houtput).1
  exact ⟨run, output, hrun, houtput, haccounts.length_eq, haccounts⟩

end TwinLedger
