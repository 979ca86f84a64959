import TwinLedger.Proofs.Block.GasAccounting
import TwinLedger.Proofs.Block.Replay
import TwinLedger.Proofs.Chain.Encoding
import TwinLedger.Proofs.Execution.Emission

/-!
# Whose logs they are

The logs of a block stand in one list, and a receipt gets its logs by picking from the whole list
those under the hash of its transaction. That these are the logs that its transaction has emitted,
all of them and no others, is not in the picking: it needs that no two transactions of a block have
one hash. They have not, for the hash covers nonce and key, and of one key no nonce comes twice:

> `hash_pairwise`: unless the hash fails on them, the transactions of a passage have different
> hashes;
> `logs_eq`: then the logs of the receipts, one after the other, are what the passage has put behind
> the logs that were there.

Numbers do not leave their range on the way, since every transaction uses gas and so does every log,
and the gas of a block is a word.
-/

namespace TwinLedger

/-- The stamp under which a transaction of a block emits its logs. -/
def Stamp.ofTransaction (header : Header) (index : Nat) (tx : Transaction) : Stamp :=
  ⟨tx.hash, header.hash, header.number, .wrap index⟩

theorem Log.stamp_eq_iff {l : Log} {header : Header} {index : Nat} {tx : Transaction} :
    l.stamp = .ofTransaction header index tx ↔ l.txHash = tx.hash ∧
      l.blockHash = header.hash ∧ l.blockNumber = header.number ∧ l.txIndex = .wrap index := by
  rw [Log.stamp, Stamp.ofTransaction, Stamp.mk.injEq]

/-- Only a message that failed gets a receipt that says so. -/
theorem Receipt.failed_of_not_succeeded {header : Header} {tx : Transaction} {m : Message}
    {rules : Rules} {world : World} {result : ExecutionResult} {usedGas : U64}
    (h : (ofExecution header tx m rules world result usedGas).succeeded = false) :
    result.failed := by
  unfold succeeded at h
  have houtcome : (ofExecution header tx m rules world result usedGas).outcome =
      if rules.byzantium then .status (!result.failed) else .postState world.root := by
    unfold ofExecution
    cases rules.byzantium <;> rfl
  rw [houtcome] at h
  split at h
  · cases hfailed : result.failed with
    | true => rfl
    | false =>
      rw [hfailed] at h
      cases h
  · cases h

/-! ## One transaction -/

/-- What a transaction that was included did to the logs of its block. -/
structure Logged (header : Header) (index : Nat) (tx : Transaction) (before : Live)
    (receipt : Receipt) (after : Live) : Prop where
  emitted : ∃ new, after.world.logs = before.world.logs ++ new ∧
    ∀ l ∈ new, l.stamp = .ofTransaction header index tx
  numbered : before.world.Numbered → after.world.Numbered
  /-- Every log took gas. -/
  length_le : after.world.logs.length ≤ before.world.logs.length + receipt.gasUsed.toNat
  /-- The receipt has what is found under the hash. -/
  picked : receipt.logs = after.world.logsOf tx.hash
  transactionIndex : receipt.transactionIndex = .wrap index
  undone : receipt.succeeded = false → after.world.logs = before.world.logs

namespace Inclusion

variable {chain : Chain} {header : Header} {index : Nat} {tx : Transaction} {before after : Live}
  {m : Message} {x : Execution} {r : ExecutionResult} {receipt : Receipt}

/-- A transaction that failed leaves the logs as they were. -/
theorem logs_of_failed (h : Inclusion chain header index tx before m x r receipt after)
    (hfailed : r.failed) : after.world.logs = before.world.logs := by
  obtain ⟨a, v, left, hincluded⟩ := h.included
  rw [h.world]
  exact hincluded.logs_of_failed hfailed

theorem logged (h : Inclusion chain header index tx before m x r receipt after) :
    Logged header index tx before receipt after := by
  obtain ⟨a, v, left, hincluded⟩ := h.included
  have hemits := hincluded.emits
  have hlogs : after.world.logs = x.world.logs := by
    rw [h.world]
    rfl
  have hstamp : after.world.stamp = .ofTransaction header index tx := by
    rw [h.world]
    exact hemits.stamp
  refine {
    emitted := ?_
    numbered := ?_
    length_le := ?_
    picked := by rw [h.receipt]; rfl
    transactionIndex := ?_
    undone := ?_ }
  · obtain ⟨new, hnew, hunder⟩ := hemits.logs
    exact ⟨new, hlogs.trans hnew, hunder⟩
  · intro hbefore k l hl
    rw [hlogs] at hl
    exact hemits.numbered hbefore k l hl
  · have hgasUsed : receipt.gasUsed = r.gasUsed := by rw [h.receipt]; rfl
    rw [hlogs, hgasUsed]
    exact hincluded.length_logs_le
  · rw [h.receipt]
    show after.world.stamp.txIndex = _
    rw [hstamp]
    rfl
  · intro hnot
    rw [h.receipt] at hnot
    exact h.logs_of_failed (Receipt.failed_of_not_succeeded hnot)

end Inclusion

namespace Logged

variable {header : Header} {index : Nat} {tx : Transaction} {before after : Live}
  {receipt : Receipt}

/-- A log was there before, or it is under the hash of the transaction. -/
theorem txHash_of_mem (h : Logged header index tx before receipt after) {l : Log}
    (hl : l ∈ after.world.logs) : l ∈ before.world.logs ∨ l.txHash = tx.hash := by
  obtain ⟨new, hlogs, hunder⟩ := h.emitted
  rw [hlogs] at hl
  rcases List.mem_append.1 hl with hold | hnew
  · exact Or.inl hold
  · exact Or.inr (Log.stamp_eq_iff.1 (hunder l hnew)).1

/-- Where no log was under the hash before, the receipt has the logs that were emitted. -/
theorem emitted_of_fresh (h : Logged header index tx before receipt after)
    (hfresh : ∀ l ∈ before.world.logs, l.txHash ≠ tx.hash) :
    after.world.logs = before.world.logs ++ receipt.logs ∧
      ∀ l ∈ receipt.logs, l.stamp = .ofTransaction header index tx := by
  obtain ⟨new, hlogs, hunder⟩ := h.emitted
  have hold : before.world.logs.filter (·.txHash == tx.hash) = [] := by
    refine List.filter_eq_nil_iff.2 fun l hl => ?_
    rw [beq_iff_eq]
    exact hfresh l hl
  have hnew : new.filter (·.txHash == tx.hash) = new := by
    refine List.filter_eq_self.2 fun l hl => ?_
    rw [beq_iff_eq]
    exact (Log.stamp_eq_iff.1 (hunder l hl)).1
  have hpicked : receipt.logs = new := by
    rw [h.picked, World.logsOf, hlogs, List.filter_append, hold, hnew, List.nil_append]
  rw [hpicked]
  exact ⟨hlogs, hunder⟩

/-- Where no log was under the hash before and none was emitted, the receipt has none. -/
theorem logs_eq_nil (h : Logged header index tx before receipt after)
    (hfresh : ∀ l ∈ before.world.logs, l.txHash ≠ tx.hash)
    (hsame : after.world.logs = before.world.logs) : receipt.logs = [] := by
  have hlogs := (h.emitted_of_fresh hfresh).1
  rw [hsame] at hlogs
  exact List.self_eq_append_right.1 hlogs

end Logged

/-! ## No hash twice -/

/-- What is needed of a transaction to tell its name from others: it has a sender, and its input is
not too long. -/
def Nameable (chain : Chain) (header : Header) (tx : Transaction) : Prop :=
  chain.sender header tx = .ok (Address.ofKey tx.publicKey) ∧ 4 * tx.input.length < Word.range 64

theorem Inclusion.nameable {chain : Chain} {header : Header} {index : Nat} {tx : Transaction}
    {before after : Live} {m : Message} {x : Execution} {r : ExecutionResult} {receipt : Receipt}
    (h : Inclusion chain header index tx before m x r receipt after) :
    Nameable chain header tx := by
  obtain ⟨intrinsic, hintrinsic, _⟩ := (Charged.of_inclusion h).intrinsic_le
  refine ⟨?_, Gas.input_lt_of_intrinsic? hintrinsic⟩
  rw [h.sender, Signer.eq_ofKey_of_sender h.sender]

namespace Passage

variable {chain : Chain} {header : Header} {index : Nat} {txs : List Transaction}
  {before after : Live} {receipts : List Receipt}

/-- No two transactions of a passage have one hash, unless it fails on them. -/
theorem hash_pairwise (h : Passage chain header index txs before receipts after)
    (hcollide : ∀ t ∈ txs, ∀ t' ∈ txs, ¬ Collide keccak256 t.encoding t'.encoding) :
    txs.Pairwise fun t t' => t.hash ≠ t'.hash := by
  refine h.nonce_pairwise.imp_of_mem ?_
  intro t t' ht ht' hlater hsame
  obtain ⟨hsender, hshort⟩ := h.forall_mem (fun hi => hi.nameable) t ht
  obtain ⟨hsender', -⟩ := h.forall_mem (fun hi => hi.nameable) t' ht'
  rcases eq_or_collide hsame with hencoding | hfails
  · have hitems := Transaction.items_eq_of_encoding_eq (Transaction.length_encoding_lt hshort)
      hencoding
    obtain ⟨halike, -, hkey, -⟩ := Transaction.items_inj.1 hitems
    -- One key is one sender, and a sender does not use a nonce twice.
    have hlt := Word.lt_iff.1 (hlater _ hsender (by rw [hsender', hkey]))
    rw [halike.nonce] at hlt
    exact Nat.lt_irrefl _ hlt
  · exact hcollide t ht t' ht' hfails

/-! ## One transaction after the other -/

/-- A log was there before, or it is under the hash of one of the transactions. -/
theorem txHash_of_mem (h : Passage chain header index txs before receipts after) {l : Log}
    (hl : l ∈ after.world.logs) : l ∈ before.world.logs ∨ ∃ tx ∈ txs, l.txHash = tx.hash := by
  induction h with
  | done index live => exact Or.inl hl
  | next first _ ih =>
    rcases ih hl with hmid | ⟨tx, htx, hhash⟩
    · rcases first.logged.txHash_of_mem hmid with hbefore | hhash
      · exact Or.inl hbefore
      · exact Or.inr ⟨_, List.mem_cons_self, hhash⟩
    · exact Or.inr ⟨tx, List.mem_cons_of_mem _ htx, hhash⟩

/-- The logs of the receipts are what the passage has put behind the logs that were there. -/
theorem logs_eq (h : Passage chain header index txs before receipts after)
    (hdistinct : txs.Pairwise fun t t' => t.hash ≠ t'.hash)
    (hfresh : ∀ l ∈ before.world.logs, ∀ tx ∈ txs, l.txHash ≠ tx.hash) :
    after.world.logs = before.world.logs ++ receipts.flatMap (·.logs) := by
  induction h with
  | done index live => exact (List.append_nil _).symm
  | @next index tx rest before mid after m x r receipt receipts first later ih =>
    obtain ⟨hfirst, hrest⟩ := List.pairwise_cons.1 hdistinct
    have hmid := (first.logged.emitted_of_fresh fun l hl => hfresh l hl tx List.mem_cons_self).1
    have hlater : ∀ l ∈ mid.world.logs, ∀ t ∈ rest, l.txHash ≠ t.hash := by
      intro l hl t ht
      rcases first.logged.txHash_of_mem hl with hold | hhash
      · exact hfresh l hold t (List.mem_cons_of_mem _ ht)
      · rw [hhash]
        exact hfirst t ht
    rw [ih hrest hlater, hmid, List.flatMap_cons, List.append_assoc]

/-- What a transaction finds has no log under its hash. -/
theorem fresh_of_take {i : Nat} {tx : Transaction}
    (h : Passage chain header index (txs.take i) before receipts after)
    (hdistinct : txs.Pairwise fun t t' => t.hash ≠ t'.hash) (hbefore : before.world.logs = [])
    (htx : txs[i]? = some tx) : ∀ l ∈ after.world.logs, l.txHash ≠ tx.hash := by
  intro l hl
  rcases h.txHash_of_mem hl with hold | ⟨t, ht, hhash⟩
  · rw [hbefore] at hold
    cases hold
  · obtain ⟨hi, hget⟩ := List.getElem?_eq_some_iff.1 htx
    have hsplit : txs = txs.take i ++ tx :: txs.drop (i + 1) := by
      rw [← hget, ← List.drop_eq_getElem_cons hi, List.take_append_drop]
    rw [hsplit] at hdistinct
    rw [hhash]
    exact (List.pairwise_append.1 hdistinct).2.2 t ht tx List.mem_cons_self

/-- There are no more new logs than gas used. -/
theorem length_logs_le (h : Passage chain header index txs before receipts after) :
    after.world.logs.length ≤ before.world.logs.length + gasOf receipts := by
  induction h with
  | done index live => exact Nat.le_refl _
  | next first _ ih =>
    have hfirst := first.logged.length_le
    rw [gasOf]
    omega

/-- There are no more transactions than gas used. -/
theorem length_le_gasOf (h : Passage chain header index txs before receipts after) :
    receipts.length ≤ gasOf receipts := by
  induction h with
  | done index live => exact Nat.le_refl _
  | next first _ ih =>
    have hpos := (Charged.of_inclusion first).gasUsed_pos
    rw [List.length_cons, gasOf]
    omega

end Passage

/-! ## Blocks -/

theorem logs_openBlock (chain : Chain) (header : Header) (w : World) :
    (openBlock chain header w).logs = w.logs := by
  unfold openBlock
  split
  · exact w.logs_drain _
  · rfl

/-- What the output of a block says about logs, and the world with it. -/
structure LogAccounts (block : Block) (after : World) (output : ProcessOutput) : Prop where
  world : output.logs = after.logs
  concat : output.logs = output.receipts.flatMap (·.logs)
  index : ∀ (k : Nat) (l : Log), output.logs[k]? = some l → l.index.toNat = k
  length_eq : output.receipts.length = block.transactions.length
  /-- Each receipt has the logs of its transaction. -/
  receipts : ∀ (i : Nat) (tx : Transaction) (receipt : Receipt), block.transactions[i]? = some tx →
    output.receipts[i]? = some receipt →
    receipt.transactionIndex.toNat = i ∧
    (∀ l ∈ receipt.logs, l.txIndex.toNat = i ∧ l.txHash = tx.hash ∧
      l.blockHash = block.header.hash ∧ l.blockNumber = block.header.number) ∧
    (receipt.succeeded = false → receipt.logs = [])

/-- The engine emits nothing at the end of the block. -/
def Engine.KeepsLogs (engine : Engine) : Prop :=
  ∀ chain header w txs uncles, (engine chain header w txs uncles).logs = w.logs

section

variable {chain : Chain} {engine : Engine} {config : ExecutionConfig} {block : Block} {w : World}
  {disk : Disk}

theorem logAccounts_of_passage {receipts : List Receipt} {live : Live} {v : World}
    (hlogs : w.logs = [])
    (hcollide : ∀ t ∈ block.transactions, ∀ t' ∈ block.transactions,
      ¬ Collide keccak256 t.encoding t'.encoding)
    (h : Passage chain block.header 0 block.transactions (.atStart chain block w) receipts live)
    (hworld : v.logs = live.world.logs) :
    LogAccounts block v ⟨receipts, receipts.flatMap (·.logs), live.usedGas⟩ := by
  have hdistinct := h.hash_pairwise hcollide
  have hstart : (Live.atStart chain block w).world.logs = [] :=
    (logs_openBlock chain block.header w).trans hlogs
  have hall : live.world.logs = receipts.flatMap (·.logs) := by
    have hfresh : ∀ l ∈ (Live.atStart chain block w).world.logs, ∀ tx ∈ block.transactions,
        l.txHash ≠ tx.hash := by
      intro l hl
      rw [hstart] at hl
      cases hl
    rw [h.logs_eq hdistinct hfresh, hstart, List.nil_append]
  have hgas : gasOf receipts < Word.range 64 := by
    have hused : live.usedGas.toNat = 0 + gasOf receipts := h.usedGas_eq
    have := live.usedGas.isLt
    omega
  refine ⟨?_, rfl, ?_, h.length_eq, ?_⟩
  · rw [hworld, hall]
  · intro k l hl
    have hnumbered : live.world.Numbered := by
      refine h.invariant (fun hi => hi.logged.numbered) ?_
      intro j e he
      rw [hstart] at he
      cases he
    have hmem : live.world.logs[k]? = some l := by
      rw [hall]
      exact hl
    have hk : k < live.world.logs.length := (List.getElem?_eq_some_iff.1 hmem).1
    have hlength := h.length_logs_le
    rw [hstart, List.length_nil] at hlength
    rw [hnumbered k l hmem, Word.toNat_wrap, Nat.mod_eq_of_lt (by omega)]
  · intro i tx receipt htx hreceipt
    obtain ⟨mid, m, x, r, next, hfront, hinclusion⟩ := h.exists_inclusion htx hreceipt
    rw [Nat.zero_add] at hinclusion
    have hfresh := hfront.fresh_of_take hdistinct hstart htx
    have hlogged := hinclusion.logged
    have hi : (Word.wrap i : U64).toNat = i := by
      have hlt : i < receipts.length := (List.getElem?_eq_some_iff.1 hreceipt).1
      have hlength := h.length_le_gasOf
      rw [Word.toNat_wrap, Nat.mod_eq_of_lt (by omega)]
    refine ⟨by rw [hlogged.transactionIndex, hi], ?_, ?_⟩
    · intro l hl
      obtain ⟨hhash, hblock, hnumber, hindex⟩ :=
        Log.stamp_eq_iff.1 ((hlogged.emitted_of_fresh hfresh).2 l hl)
      exact ⟨by rw [hindex, hi], hhash, hblock, hnumber⟩
    · intro hnot
      exact hlogged.logs_eq_nil hfresh (hlogged.undone hnot)

/-- Logs are attributed to exactly one transaction. If a block is processed to the end, the logs of
the world are those of the receipts, one receipt after the other, and they are numbered in order;
each is under the stamp of the transaction of its receipt. Of a transaction whose execution failed,
which is what both executors say if one does, the receipt has none. -/
theorem process_attributes_logs {run : BlockRun} {output : ProcessOutput}
    (hengine : engine.KeepsLogs) (hlogs : w.logs = [])
    (hcollide : ∀ t ∈ block.transactions, ∀ t' ∈ block.transactions,
      ¬ Collide keccak256 t.encoding t'.encoding)
    (h : process chain engine .stock config block w disk = .ok run)
    (houtput : run.outcome = .ok output) :
    LogAccounts block run.world output ∧
    ∀ (i : Nat) (tx : Transaction) (receipt : Receipt), block.transactions[i]? = some tx →
      output.receipts[i]? = some receipt →
      ∃ before m x r, runUpTo chain .stock config block w disk i = .ok before ∧
        (Signer.forBlock chain.config block.header.number).asMessage tx = .ok m ∧
        (∀ seat, Executors.stock.at seat (chain.context block.header m) m
          (before.live.stamped block.header i tx).world before.live.pool = .ok x) ∧
        x.result = .ok r ∧ (r.failed → receipt.logs = []) := by
  rcases process_cases h with
    ⟨receipts, live, hpassage, hok, hworld⟩ | ⟨_, _, _, _, _, _, _, _, herror, _⟩
  · cases houtput.symm.trans hok
    refine ⟨logAccounts_of_passage hlogs hcollide hpassage (by rw [hworld]; exact hengine ..), ?_⟩
    intro i tx receipt htx hreceipt
    obtain ⟨before, m, x, r, after, hbefore, hearly, hinclusion⟩ :=
      exists_inclusion_of_process h houtput htx hreceipt
    have hfresh := (passage_of_runUpTo hbefore hearly).fresh_of_take
      (hpassage.hash_pairwise hcollide) ((logs_openBlock chain block.header w).trans hlogs) htx
    refine ⟨before, m, x, r, hbefore, hinclusion.message, ?_, hinclusion.result, ?_⟩
    · intro seat
      rw [Executors.stock_at]
      exact hinclusion.executed
    · intro hfailed
      exact hinclusion.logged.logs_eq_nil hfresh (hinclusion.logs_of_failed hfailed)
  · cases houtput.symm.trans herror

end

/-- A sender, a contract that logs twice, and one that logs and then reverts. -/
def loggingWorld : World :=
  let twice : Account :=
    { nonce := 1, code := (Instruction.log [7] [1, 2]).encode ++ (Instruction.log [] []).encode }
  let reverting : Account :=
    { nonce := 1, code := (Instruction.log [] [9]).encode ++ Instruction.revert.encode }
  let sender := Address.ofKey neutralTransaction.publicKey
  ((({} : World).insertFinalised sender { balance := 1000000 }).insertFinalised 1
    twice).insertFinalised 2 reverting

/-- A call of the contract that reverts, between two calls of the other. -/
def loggingBlock : Block where
  header := { coinbase := 5, gasLimit := 200000 }
  transactions :=
    [{ neutralTransaction with gasLimit := 60000, recipient := some 1 },
      { neutralTransaction with nonce := 1, gasLimit := 60000, recipient := some 2 },
      { neutralTransaction with nonce := 2, gasLimit := 60000, recipient := some 1 }]

theorem process_attributes_logs_reverting :
    ∃ run output, process drainChain .idle .stock uncheckedConfig loggingBlock loggingWorld {} =
        .ok run ∧
      run.outcome = .ok output ∧ output.receipts.map (·.logs.length) = [2, 0, 2] ∧
      LogAccounts loggingBlock run.world output := by
  have hanswer : (process drainChain .idle .stock uncheckedConfig loggingBlock loggingWorld
      {}).toOption.any (fun run => run.outcome.toOption.any fun output =>
        output.receipts.map (·.logs.length) == [2, 0, 2]) = true := by decide +kernel
  obtain ⟨run, output, hrun, houtput, hcounts⟩ := exists_output hanswer
  have hcollide : ∀ t ∈ loggingBlock.transactions, ∀ t' ∈ loggingBlock.transactions,
      ¬ Collide keccak256 t.encoding t'.encoding := by decide +kernel
  obtain ⟨haccounts, _⟩ :=
    process_attributes_logs (fun _ _ _ _ _ => rfl) rfl hcollide hrun houtput
  exact ⟨run, output, hrun, houtput, eq_of_beq hcounts, haccounts⟩

end TwinLedger
