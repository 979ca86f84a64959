import TwinLedger.Proofs.Block.Transparency
import TwinLedger.Proofs.Execution.Settlement
import TwinLedger.Proofs.World.Drain

/-!
# The run of a block

Processing a block goes from one transaction to the next until all are included or one is rejected.
Whatever the configuration, with the executors of the ledger this is one run (`process_of_same`),
and this file says what such a run is made of:

> `Inclusion`: one transaction, from the values it finds to the values it leaves;
> `Passage`: transactions included one after the other, with their receipts.

What the transaction of index `i` finds is what the run over the `i` transactions before it leaves
(`runUpTo`). From there the run is a passage over the transactions that are included, and it ends
after the last of them, or before one that is rejected and changes nothing: `runUpTo_resume` says
so of a longer run, `process_resume` and `process_cases` of the block. A property of whole runs is
then an induction over a passage, with one inclusion as its step (`Passage.invariant`).
-/

namespace TwinLedger

/-- The environment of a message in a block. -/
def Chain.context (chain : Chain) (header : Header) (m : Message) : BlockContext :=
  .ofHeader m header (chain.author header) chain.config

/-- The account that a transaction in a block is sent by. -/
def Chain.sender (chain : Chain) (header : Header) (tx : Transaction) :
    Except SignerError Address :=
  (Signer.forBlock chain.config header.number).sender tx

namespace Live

/-- The values with the stamp of the transaction put on. -/
def stamped (live : Live) (header : Header) (index : Nat) (tx : Transaction) : Live :=
  { live with world := live.world.prepare ⟨tx.hash, header.hash, header.number, .wrap index⟩ }

/-- The values with which the transactions of a block start. -/
def atStart (chain : Chain) (block : Block) (w : World) : Live :=
  { world := openBlock chain block.header w, pool := ⟨block.gasLimit⟩ }

end Live

/-- The engine that does nothing. -/
def Engine.idle : Engine := fun _ _ w _ _ => w

/-- What the first `i` transactions of a block leave behind. If they were all included, these are
the values that the transaction of index `i` finds. -/
def runUpTo (chain : Chain) (executors : Executors) (config : ExecutionConfig) (block : Block)
    (w : World) (disk : Disk) (i : Nat) : Checked TransactionsRun :=
  applyAll chain executors config block.header 0 (block.transactions.take i)
    (.atStart chain block w) disk

/-! ## One transaction -/

/-- The message of a transaction is the transaction with its sender. -/
theorem message_of_asMessage {s : Signer} {tx : Transaction} {m : Message}
    (h : s.asMessage tx = .ok m) : s.sender tx = .ok m.sender ∧ m = .ofTransaction tx m.sender := by
  unfold Signer.asMessage at h
  cases hsender : s.sender tx with
  | error e =>
    rw [hsender] at h
    cases h
  | ok sender =>
    rw [hsender] at h
    cases h
    exact ⟨rfl, rfl⟩

/-- A transaction of the given index that was included: its message, what the executor left, and
the result. -/
structure Inclusion (chain : Chain) (header : Header) (index : Nat) (tx : Transaction)
    (before : Live) (m : Message) (x : Execution) (r : ExecutionResult) (receipt : Receipt)
    (after : Live) : Prop where
  message : (Signer.forBlock chain.config header.number).asMessage tx = .ok m
  executed : InPlace.apply (chain.context header m) m (before.stamped header index tx).world
    before.pool = .ok x
  result : x.result = .ok r
  world : after.world = x.world.finalise (chain.config.isEip158 header.number)
  pool : after.pool = x.pool
  usedGas : before.usedGas.add r.gasUsed = .ok after.usedGas
  receipt : receipt = .ofExecution header tx m (chain.config.rules header.number) after.world r
    after.usedGas

namespace Inclusion

variable {chain : Chain} {header : Header} {index : Nat} {tx : Transaction} {before after : Live}
  {m : Message} {x : Execution} {r : ExecutionResult} {receipt : Receipt}

theorem sender (h : Inclusion chain header index tx before m x r receipt after) :
    chain.sender header tx = .ok m.sender := (message_of_asMessage h.message).1

/-- The executor included the message. -/
theorem included (h : Inclusion chain header index tx before m x r receipt after) :
    ∃ a v left, Included (chain.context header m) m (before.stamped header index tx).world
      before.pool a v left r x := by
  rcases InPlace.apply_cases h.executed with ⟨e, rfl⟩ | ⟨a, v, left, r', hincluded⟩
  · cases h.result
  · have hr : r' = r := Except.ok.inj (hincluded.result.symm.trans h.result)
    rw [hr] at hincluded
    exact ⟨a, v, left, hincluded⟩

end Inclusion

/-- A transaction is rejected and changes nothing, or it is included. -/
theorem applyWith_cases {chain : Chain} {header : Header} {index : Nat} {tx : Transaction}
    {before : Live} {applied : Applied}
    (h : applyWith chain InPlace.apply none header tx (before.stamped header index tx) =
      .ok applied) :
    (∃ e, applied = ⟨.error e, before.stamped header index tx⟩) ∨
      ∃ m x r receipt after, applied = ⟨.ok (receipt, r.gasUsed), after⟩ ∧
        Inclusion chain header index tx before m x r receipt after := by
  cases appliedAs_of_applyWith h with
  | unsigned hmessage => exact Or.inl ⟨_, rfl⟩
  | @refused m x e hmessage hx hresult =>
    rcases InPlace.apply_cases hx with ⟨e', rfl⟩ | ⟨a, v, left, r, hincluded⟩
    · exact Or.inl ⟨_, rfl⟩
    · rw [hincluded.result] at hresult
      cases hresult
  | @included m x r usedGas hmessage hx hresult hused =>
    exact Or.inr ⟨m, x, r, _, _, rfl, hmessage, hx, hresult, rfl, rfl, hused, rfl⟩

/-! ## One transaction after the other -/

/-- Transactions that were all included, the first with the given index, and their receipts. -/
inductive Passage (chain : Chain) (header : Header) :
    Nat → List Transaction → Live → List Receipt → Live → Prop
  | done (index : Nat) (live : Live) : Passage chain header index [] live [] live
  | next {index : Nat} {tx : Transaction} {rest : List Transaction} {before mid after : Live}
      {m : Message} {x : Execution} {r : ExecutionResult} {receipt : Receipt}
      {receipts : List Receipt}
      (first : Inclusion chain header index tx before m x r receipt mid)
      (later : Passage chain header (index + 1) rest mid receipts after) :
      Passage chain header index (tx :: rest) before (receipt :: receipts) after

namespace Passage

variable {chain : Chain} {header : Header}

/-- There is one receipt for each transaction. -/
theorem length_eq {index : Nat} {txs : List Transaction} {before after : Live}
    {receipts : List Receipt} (h : Passage chain header index txs before receipts after) :
    receipts.length = txs.length := by
  induction h with
  | done index live => rfl
  | next _ _ ih => rw [List.length_cons, List.length_cons, ih]

/-- A passage over two lists comes by the values between them. -/
theorem split_append {front back : List Transaction} {index : Nat} {before after : Live}
    {receipts : List Receipt}
    (h : Passage chain header index (front ++ back) before receipts after) :
    ∃ mid early late, receipts = early ++ late ∧
      Passage chain header index front before early mid ∧
      Passage chain header (index + front.length) back mid late after := by
  induction front generalizing index before receipts with
  | nil => exact ⟨before, [], receipts, rfl, .done index before, h⟩
  | cons tx rest ih =>
    cases h with
    | next first later =>
      obtain ⟨mid, early, late, rfl, hearly, hlate⟩ := ih later
      refine ⟨mid, _ :: early, late, rfl, .next first hearly, ?_⟩
      rw [List.length_cons, Nat.add_comm rest.length, ← Nat.add_assoc]
      exact hlate

/-- A passage comes by each of its transactions, and the receipts so far are those in front. -/
theorem exists_inclusion {i : Nat} {tx : Transaction} {receipt : Receipt} {index : Nat}
    {txs : List Transaction} {before after : Live} {receipts : List Receipt}
    (h : Passage chain header index txs before receipts after) (htx : txs[i]? = some tx)
    (hreceipt : receipts[i]? = some receipt) :
    ∃ mid m x r next, Passage chain header index (txs.take i) before (receipts.take i) mid ∧
      Inclusion chain header (index + i) tx mid m x r receipt next := by
  induction h generalizing i with
  | done index live => cases htx
  | next first later ih =>
    cases i with
    | zero =>
      cases htx
      cases hreceipt
      exact ⟨_, _, _, _, _, .done _ _, first⟩
    | succ i =>
      obtain ⟨mid, m, x, r, next, hearly, hinclusion⟩ := ih htx hreceipt
      rw [Nat.add_assoc, Nat.add_comm 1] at hinclusion
      exact ⟨mid, m, x, r, next, .next first hearly, hinclusion⟩

/-- What no inclusion disturbs holds after a passage. -/
theorem invariant {P : World → Prop}
    (hstep : ∀ {index tx before m x r receipt after},
      Inclusion chain header index tx before m x r receipt after → P before.world → P after.world)
    {index : Nat} {txs : List Transaction} {before after : Live} {receipts : List Receipt}
    (h : Passage chain header index txs before receipts after) (hbefore : P before.world) :
    P after.world := by
  induction h with
  | done index live => exact hbefore
  | next first _ ih => exact ih (hstep first hbefore)

/-- What every inclusion shows of its transaction holds of all transactions of a passage. -/
theorem forall_mem {P : Transaction → Prop}
    (hstep : ∀ {index tx before m x r receipt after},
      Inclusion chain header index tx before m x r receipt after → P tx)
    {index : Nat} {txs : List Transaction} {before after : Live} {receipts : List Receipt}
    (h : Passage chain header index txs before receipts after) : ∀ tx ∈ txs, P tx := by
  induction h with
  | done index live =>
    intro tx htx
    cases htx
  | next first _ ih =>
    intro tx htx
    rcases List.mem_cons.1 htx with rfl | hlater
    · exact hstep first
    · exact ih tx hlater

end Passage

namespace Direct

variable {chain : Chain} {header : Header}

/-- A run goes on with the rest once the first transaction is included. -/
theorem applyAll_cons (executor : Executor) (index : Nat) (tx : Transaction)
    (rest : List Transaction) (live : Live) :
    applyAll chain executor header index (tx :: rest) live =
      applyWith chain executor none header tx (live.stamped header index tx) >>= fun applied =>
        match applied.outcome with
        | .error e => .ok (.error e, applied.live)
        | .ok done =>
          (applyAll chain executor header (index + 1) rest applied.live).map fun later =>
            (later.1.map (done.1 :: ·), later.2) := by
  rw [applyAll]
  show applyWith chain executor none header tx (live.stamped header index tx) >>= _ = _
  cases applyWith chain executor none header tx (live.stamped header index tx) with
  | error e => rfl
  | ok applied =>
    obtain ⟨outcome, mid⟩ := applied
    cases outcome with
    | error e => rfl
    | ok done =>
      simp only [bind, Except.bind]
      cases applyAll chain executor header (index + 1) rest mid with
      | error e => rfl
      | ok later => rfl

/-- A run over transactions is a passage over all of them, or over those in front of one that is
rejected. -/
theorem applyAll_cases {index : Nat} {txs : List Transaction} {before after : Live}
    {result : Except Rejection (List Receipt)}
    (h : applyAll chain InPlace.apply header index txs before = .ok (result, after)) :
    (∃ receipts, result = .ok receipts ∧ Passage chain header index txs before receipts after) ∨
      ∃ front tx back receipts mid e, txs = front ++ tx :: back ∧ result = .error e ∧
        Passage chain header index front before receipts mid ∧
        after = mid.stamped header (index + front.length) tx := by
  induction txs generalizing index before result with
  | nil =>
    obtain ⟨rfl, rfl⟩ := Prod.mk.inj (Except.ok.inj h)
    exact Or.inl ⟨[], rfl, .done index before⟩
  | cons tx rest ih =>
    rw [applyAll_cons] at h
    cases happlied : applyWith chain InPlace.apply none header tx (before.stamped header index tx)
      with
    | error e =>
      rw [happlied] at h
      cases h
    | ok applied =>
      rw [happlied] at h
      rcases applyWith_cases happlied with ⟨e, rfl⟩ | ⟨m, x, r, receipt, mid, rfl, hfirst⟩
      · obtain ⟨rfl, rfl⟩ := Prod.mk.inj (Except.ok.inj h)
        exact Or.inr ⟨[], tx, rest, [], before, e, rfl, rfl, .done index before, rfl⟩
      · simp only [bind, Except.bind] at h
        cases hlater : applyAll chain InPlace.apply header (index + 1) rest mid with
        | error e =>
          rw [hlater] at h
          cases h
        | ok later =>
          rw [hlater] at h
          obtain ⟨result', after'⟩ := later
          obtain ⟨rfl, rfl⟩ := Prod.mk.inj (Except.ok.inj h)
          rcases ih hlater with
            ⟨receipts, rfl, hpassage⟩ |
              ⟨front, t, back, receipts, mid', e, rfl, rfl, hpassage, hafter⟩
          · exact Or.inl ⟨receipt :: receipts, rfl, .next hfirst hpassage⟩
          · refine Or.inr ⟨tx :: front, t, back, receipt :: receipts, mid', e, rfl, rfl,
              .next hfirst hpassage, ?_⟩
            rw [List.length_cons, Nat.add_comm front.length, ← Nat.add_assoc]
            exact hafter

/-- A run over two lists goes on with the second once the first is included. -/
theorem applyAll_append (executor : Executor) (front back : List Transaction) (index : Nat)
    (live : Live) :
    applyAll chain executor header index (front ++ back) live =
      applyAll chain executor header index front live >>= fun run =>
        match run.1 with
        | .error e => .ok (.error e, run.2)
        | .ok receipts =>
          (applyAll chain executor header (index + front.length) back run.2).map fun later =>
            (later.1.map (receipts ++ ·), later.2) := by
  induction front generalizing index live with
  | nil =>
    show applyAll chain executor header index back live =
      (applyAll chain executor header index back live).map _
    cases applyAll chain executor header index back live with
    | error e => rfl
    | ok later =>
      obtain ⟨result, after⟩ := later
      cases result <;> rfl
  | cons tx rest ih =>
    rw [List.cons_append, applyAll_cons, applyAll_cons]
    cases applyWith chain executor none header tx (live.stamped header index tx) with
    | error e => rfl
    | ok applied =>
      obtain ⟨outcome, mid⟩ := applied
      cases outcome with
      | error e => rfl
      | ok done =>
        simp only [bind, Except.bind]
        rw [ih, List.length_cons, Nat.add_comm rest.length, ← Nat.add_assoc]
        cases applyAll chain executor header (index + 1) rest mid with
        | error e => rfl
        | ok first =>
          obtain ⟨result, after⟩ := first
          cases result with
          | error e => rfl
          | ok receipts =>
            simp only [bind, Except.bind, Except.map]
            cases applyAll chain executor header (index + 1 + rest.length) back after with
            | error e => rfl
            | ok later =>
              obtain ⟨result', after'⟩ := later
              cases result' <;> rfl

end Direct

/-! ## Blocks -/

section

variable {chain : Chain} {engine : Engine} {config : ExecutionConfig} {block : Block} {w : World}
  {disk : Disk}

/-- Opening a block changes balances only. -/
theorem openBlock_frame {α : Type} (field : Account → α)
    (hfield : ∀ account balance, field { account with balance } = field account)
    (chain : Chain) (header : Header) (w : World) (a : Address) :
    field ((openBlock chain header w).accountD a) = field (w.accountD a) := by
  unfold openBlock
  split
  · exact World.drain_frame field hfield w _ a
  · rfl

/-- Processing is running all transactions and then letting the engine finish the block. -/
theorem process_eq_runUpTo (executors : Executors) {i : Nat} (hi : block.transactions.length ≤ i) :
    process chain engine executors config block w disk =
      runUpTo chain executors config block w disk i >>= fun all =>
        match all.outcome with
        | .error e => .ok ⟨.error e, all.live.world, all.disk⟩
        | .ok receipts =>
          .ok ⟨.ok ⟨receipts, receipts.flatMap (·.logs), all.live.usedGas⟩,
            engine chain block.header all.live.world block.transactions block.uncles,
            all.disk⟩ := by
  unfold runUpTo
  rw [List.take_of_length_le hi]
  rfl

/-- The run of the transactions, whatever the configuration: one executor, and no error but a
rejected transaction. -/
theorem runUpTo_stock (i : Nat) :
    runUpTo chain .stock config block w disk i =
      (Direct.applyAll chain InPlace.apply block.header 0 (block.transactions.take i)
        (.atStart chain block w)).map fun run => ⟨run.1.mapError .rejected, run.2, disk⟩ := by
  rw [runUpTo, Executors.stock_eq]
  exact applyAll_of_same chain InPlace.apply config block.header 0 _ _ disk

theorem runUpTo_zero :
    runUpTo chain .stock config block w disk 0 = .ok ⟨.ok [], .atStart chain block w, disk⟩ := rfl

/-- The run goes on from the first `i` transactions with the `k` behind them, if none of the first
was rejected. -/
theorem runUpTo_add (i k : Nat) :
    runUpTo chain .stock config block w disk (i + k) =
      runUpTo chain .stock config block w disk i >>= fun before =>
        match before.outcome with
        | .error e => .ok ⟨.error e, before.live, disk⟩
        | .ok early =>
          (Direct.applyAll chain InPlace.apply block.header (block.transactions.take i).length
            ((block.transactions.drop i).take k) before.live).map fun later =>
              ⟨(later.1.mapError .rejected).map (early ++ ·), later.2, disk⟩ := by
  rw [runUpTo_stock, runUpTo_stock, List.take_add, Direct.applyAll_append, Nat.zero_add]
  cases Direct.applyAll chain InPlace.apply block.header 0 (block.transactions.take i)
      (.atStart chain block w) with
  | error e => rfl
  | ok front =>
    obtain ⟨result, live⟩ := front
    cases result with
    | error e => rfl
    | ok early =>
      simp only [bind, Except.bind, Except.map, Rejection.mapError_ok]
      cases Direct.applyAll chain InPlace.apply block.header (block.transactions.take i).length
          ((block.transactions.drop i).take k) live with
      | error e => rfl
      | ok later =>
        obtain ⟨result', live'⟩ := later
        cases result' <;> rfl

/-- A longer run goes by the shorter one. -/
theorem exists_runUpTo_of_add {i k : Nat} {after : TransactionsRun}
    (h : runUpTo chain .stock config block w disk (i + k) = .ok after) :
    ∃ before, runUpTo chain .stock config block w disk i = .ok before := by
  rw [runUpTo_add] at h
  cases hbefore : runUpTo chain .stock config block w disk i with
  | error e =>
    rw [hbefore] at h
    cases h
  | ok before => exact ⟨before, rfl⟩

/-- From the first `i` transactions, if they were included, the run makes a passage over the `k`
behind them, or over those in front of one that is rejected. -/
theorem runUpTo_resume {i k : Nat} {before after : TransactionsRun} {early : List Receipt}
    (hbefore : runUpTo chain .stock config block w disk i = .ok before)
    (hearly : before.outcome = .ok early)
    (hafter : runUpTo chain .stock config block w disk (i + k) = .ok after) :
    (∃ late, Passage chain block.header (block.transactions.take i).length
        ((block.transactions.drop i).take k) before.live late after.live ∧
      after.outcome = .ok (early ++ late)) ∨
    ∃ front tx back late live e, (block.transactions.drop i).take k = front ++ tx :: back ∧
      Passage chain block.header (block.transactions.take i).length front before.live late live ∧
      after.outcome = .error (.rejected e) ∧
      after.live = live.stamped block.header
        ((block.transactions.take i).length + front.length) tx := by
  rw [runUpTo_add, hbefore] at hafter
  simp only [bind, Except.bind, hearly] at hafter
  cases hlate : Direct.applyAll chain InPlace.apply block.header
      (block.transactions.take i).length ((block.transactions.drop i).take k) before.live with
  | error e =>
    rw [hlate] at hafter
    cases hafter
  | ok all =>
    rw [hlate] at hafter
    obtain ⟨result, live⟩ := all
    cases hafter
    rcases Direct.applyAll_cases hlate with
      ⟨late, rfl, hpassage⟩ | ⟨front, tx, back, late, mid, e, htxs, rfl, hpassage, hlive⟩
    · exact Or.inl ⟨late, hpassage, rfl⟩
    · exact Or.inr ⟨front, tx, back, late, mid, e, htxs, hpassage, rfl, hlive⟩

/-- Where the first `i` transactions were included, they make a passage. -/
theorem passage_of_runUpTo {i : Nat} {before : TransactionsRun} {receipts : List Receipt}
    (h : runUpTo chain .stock config block w disk i = .ok before)
    (hreceipts : before.outcome = .ok receipts) :
    Passage chain block.header 0 (block.transactions.take i) (.atStart chain block w) receipts
      before.live := by
  rw [← Nat.zero_add i] at h
  rcases runUpTo_resume runUpTo_zero rfl h with
    ⟨late, hpassage, houtcome⟩ | ⟨_, _, _, _, _, _, _, _, herror, _⟩
  · cases houtcome.symm.trans hreceipts
    exact hpassage
  · cases herror.symm.trans hreceipts

/-- From the transaction of index `i` to the next: it is included, or it is rejected and leaves
what it found. -/
theorem runUpTo_succ {i : Nat} {tx : Transaction} {before after : TransactionsRun}
    {receipts : List Receipt} (htx : block.transactions[i]? = some tx)
    (hbefore : runUpTo chain .stock config block w disk i = .ok before)
    (hreceipts : before.outcome = .ok receipts)
    (hafter : runUpTo chain .stock config block w disk (i + 1) = .ok after) :
    (∃ m x r receipt, after.outcome = .ok (receipts ++ [receipt]) ∧
      Inclusion chain block.header i tx before.live m x r receipt after.live) ∨
    ∃ e, after.outcome = .error e ∧ after.live = before.live.stamped block.header i tx := by
  obtain ⟨hi, hget⟩ := List.getElem?_eq_some_iff.1 htx
  have hlength : (block.transactions.take i).length = i := by
    rw [List.length_take]
    omega
  have hone : (block.transactions.drop i).take 1 = [tx] := by
    rw [List.drop_eq_getElem_cons hi, hget]
    rfl
  have hcases := runUpTo_resume hbefore hreceipts hafter
  rw [hlength, hone] at hcases
  rcases hcases with
    ⟨late, hpassage, houtcome⟩ | ⟨front, t, back, late, mid, e, htxs, hpassage, houtcome, hlive⟩
  · cases hpassage with
    | next first later =>
      cases later
      exact Or.inl ⟨_, _, _, _, houtcome, first⟩
  · -- A list of one element has nothing in front of the one that is rejected.
    cases front with
    | nil =>
      cases htxs
      cases hpassage
      exact Or.inr ⟨_, houtcome, hlive⟩
    | cons t' front => cases front <;> cases htxs

/-- A block goes on from what the first `i` transactions leave. It ends after all of the others, or
before one of them that is rejected. -/
theorem process_resume {run : BlockRun} {i : Nat} {before : TransactionsRun} {early : List Receipt}
    (hbefore : runUpTo chain .stock config block w disk i = .ok before)
    (hearly : before.outcome = .ok early)
    (h : process chain engine .stock config block w disk = .ok run) :
    (∃ late live, Passage chain block.header (block.transactions.take i).length
        (block.transactions.drop i) before.live late live ∧
      run.outcome = .ok ⟨early ++ late, (early ++ late).flatMap (·.logs), live.usedGas⟩ ∧
      run.world = engine chain block.header live.world block.transactions block.uncles) ∨
    ∃ front tx back late live e, block.transactions.drop i = front ++ tx :: back ∧
      Passage chain block.header (block.transactions.take i).length front before.live late live ∧
      run.outcome = .error (.rejected e) ∧ ∃ stamp, run.world = live.world.prepare stamp := by
  rw [process_eq_runUpTo .stock (Nat.le_add_left _ i)] at h
  cases hall : runUpTo chain .stock config block w disk (i + block.transactions.length) with
  | error e =>
    rw [hall] at h
    cases h
  | ok all =>
    have hrest : (block.transactions.drop i).take block.transactions.length =
        block.transactions.drop i := by
      apply List.take_of_length_le
      rw [List.length_drop]
      exact Nat.sub_le _ _
    have hcases := runUpTo_resume hbefore hearly hall
    rw [hrest] at hcases
    rw [hall] at h
    simp only [bind, Except.bind] at h
    rcases hcases with
      ⟨late, hpassage, houtcome⟩ | ⟨front, tx, back, late, mid, e, htxs, hpassage, houtcome, hlive⟩
    · rw [houtcome] at h
      cases h
      exact Or.inl ⟨late, _, hpassage, rfl, rfl⟩
    · rw [houtcome] at h
      cases h
      exact Or.inr ⟨front, tx, back, late, mid, e, htxs, hpassage, rfl, _, by rw [hlive]; rfl⟩

/-- A block that has an answer goes by the values between its transactions. -/
theorem exists_runUpTo_of_process {run : BlockRun}
    (h : process chain engine .stock config block w disk = .ok run) (i : Nat) :
    ∃ before, runUpTo chain .stock config block w disk i = .ok before := by
  rw [process_eq_runUpTo .stock (Nat.le_add_left _ i)] at h
  cases hall : runUpTo chain .stock config block w disk (i + block.transactions.length) with
  | error e =>
    rw [hall] at h
    cases h
  | ok all => exact exists_runUpTo_of_add hall

/-- Where one of the first `i` transactions is rejected, so is the block. -/
theorem process_of_rejected {run : BlockRun} {i : Nat} {before : TransactionsRun} {e : ProcessError}
    (hbefore : runUpTo chain .stock config block w disk i = .ok before)
    (hrejected : before.outcome = .error e)
    (h : process chain engine .stock config block w disk = .ok run) :
    run.outcome = .error e ∧ run.world = before.live.world := by
  rw [process_eq_runUpTo .stock (Nat.le_add_left _ i), runUpTo_add, hbefore] at h
  simp only [bind, Except.bind, hrejected] at h
  cases h
  exact ⟨rfl, rfl⟩

/-- Where a block is processed to the end, so are its first `i` transactions, and their receipts
are the first of all. -/
theorem outcome_of_runUpTo {run : BlockRun} {output : ProcessOutput} {i : Nat}
    {before : TransactionsRun} (h : process chain engine .stock config block w disk = .ok run)
    (houtput : run.outcome = .ok output)
    (hbefore : runUpTo chain .stock config block w disk i = .ok before) :
    before.outcome = .ok (output.receipts.take i) := by
  cases hearly : before.outcome with
  | error e => cases houtput.symm.trans (process_of_rejected hbefore hearly h).1
  | ok early =>
    have hfront := (passage_of_runUpTo hbefore hearly).length_eq
    rcases process_resume hbefore hearly h with
      ⟨late, live, hlate, hok, _⟩ | ⟨_, _, _, _, _, _, _, _, herror, _⟩
    · cases houtput.symm.trans hok
      have hback := hlate.length_eq
      rw [List.length_take] at hfront
      rw [List.length_drop] at hback
      -- Either `i` is where the receipts are split, or there is nothing behind the split.
      rcases Nat.le_total i block.transactions.length with hle | hle
      · rw [List.take_left' (by omega)]
      · have hnil : late = [] := List.length_eq_zero_iff.1 (by omega)
        have hlength : early.length ≤ i := by omega
        rw [hnil, List.append_nil, List.take_of_length_le hlength]
    · cases houtput.symm.trans herror

/-- Where a block is processed to the end, each receipt is that of a transaction which was included
after those in front of it. -/
theorem exists_inclusion_of_process {run : BlockRun} {output : ProcessOutput} {i : Nat}
    {tx : Transaction} {receipt : Receipt}
    (h : process chain engine .stock config block w disk = .ok run)
    (houtput : run.outcome = .ok output) (htx : block.transactions[i]? = some tx)
    (hreceipt : output.receipts[i]? = some receipt) :
    ∃ before m x r after, runUpTo chain .stock config block w disk i = .ok before ∧
      before.outcome = .ok (output.receipts.take i) ∧
      Inclusion chain block.header i tx before.live m x r receipt after := by
  obtain ⟨before, hbefore⟩ := exists_runUpTo_of_process h i
  obtain ⟨after, hafter⟩ := exists_runUpTo_of_process h (i + 1)
  have hearly := outcome_of_runUpTo h houtput hbefore
  have hlate := outcome_of_runUpTo h houtput hafter
  rcases runUpTo_succ htx hbefore hearly hafter with
    ⟨m, x, r, last, houtcome, hinclusion⟩ | ⟨e, herror, _⟩
  · have hsame := Except.ok.inj (houtcome.symm.trans hlate)
    rw [List.take_add_one, hreceipt] at hsame
    have hlast : last = receipt := List.singleton_inj.1 (List.append_cancel_left hsame)
    rw [hlast] at hinclusion
    exact ⟨before, m, x, r, after.live, hbefore, hearly, hinclusion⟩
  · cases hlate.symm.trans herror

/-- The transactions of a block are included one after the other, until all are or one is
rejected. -/
theorem process_cases {run : BlockRun}
    (h : process chain engine .stock config block w disk = .ok run) :
    (∃ receipts live, Passage chain block.header 0 block.transactions (.atStart chain block w)
        receipts live ∧
      run.outcome = .ok ⟨receipts, receipts.flatMap (·.logs), live.usedGas⟩ ∧
      run.world = engine chain block.header live.world block.transactions block.uncles) ∨
    ∃ front tx back receipts live e, block.transactions = front ++ tx :: back ∧
      Passage chain block.header 0 front (.atStart chain block w) receipts live ∧
      run.outcome = .error (.rejected e) ∧ ∃ stamp, run.world = live.world.prepare stamp :=
  process_resume runUpTo_zero rfl h

/-- However a block ends, from each of its transactions there is a passage to the world at the end,
if the engine does nothing. -/
theorem passage_of_process {run : BlockRun} {i : Nat} {before : TransactionsRun}
    {early : List Receipt}
    (hbefore : runUpTo chain .stock config block w disk i = .ok before)
    (hearly : before.outcome = .ok early)
    (h : process chain .idle .stock config block w disk = .ok run) :
    ∃ index txs receipts live stamp,
      Passage chain block.header index txs before.live receipts live ∧
        run.world = live.world.prepare stamp := by
  rcases process_resume hbefore hearly h with
    ⟨late, live, hpassage, _, hworld⟩ | ⟨_, _, _, late, live, _, _, hpassage, _, stamp, hworld⟩
  · exact ⟨_, _, late, live, live.world.stamp, hpassage, hworld⟩
  · exact ⟨_, _, late, live, stamp, hpassage, hworld⟩

end

/-! ## An example -/

/-- All forks, and a drain of which the list names one account twice and one that is not there. -/
def drainChain : Chain where
  config := { ChainConfig.allForks 1 with daoFork := some ⟨0, true, 3, [2, 2, 4]⟩ }

/-- A sender, a contract that clears one slot and writes another, and two accounts that hold money,
one of them pending. -/
def drainWorld : World :=
  let contract : Account :=
    { nonce := 1
      code := (Instruction.store 1 0).encode ++ (Instruction.store 2 7).encode
      storage := SortedMap.empty.insert 1 5 }
  let sender := Address.ofKey neutralTransaction.publicKey
  ((({} : World).insertFinalised sender { balance := 1000000 }).insertFinalised 1
    contract).insertFinalised 2 { balance := 7 } |>.setAccount 5 { balance := 1 }

/-- A call of the contract and a creation, both by the sender. -/
def drainBlock : Block where
  header := { coinbase := 5, gasLimit := 200000 }
  transactions :=
    [{ neutralTransaction with gasLimit := 60000, gasPrice := 2, recipient := some 1, value := 5 },
      { neutralTransaction with
        nonce := 1, gasLimit := 60000, gasPrice := 1, recipient := none, value := 3, input := [0] }]

/-- A run that commits what one executor does and asks no other. -/
def uncheckedConfig : ExecutionConfig := ⟨.alternate, .disabled, ⟨"home", "space"⟩⟩

/-- A block that answers a test has an output. -/
theorem exists_output {answer : Checked BlockRun} {p : ProcessOutput → Bool}
    (h : answer.toOption.any (fun run => run.outcome.toOption.any p) = true) :
    ∃ run output, answer = .ok run ∧ run.outcome = .ok output ∧ p output = true := by
  obtain ⟨run, hrun, hany⟩ := exists_of_any h
  obtain ⟨output, houtput, hp⟩ := exists_of_any hany
  exact ⟨run, output, hrun, houtput, hp⟩

theorem exists_drainOutput :
    ∃ run output, process drainChain .idle .stock uncheckedConfig drainBlock drainWorld {} =
      .ok run ∧ run.outcome = .ok output := by
  have hok : (process drainChain .idle .stock uncheckedConfig drainBlock drainWorld {}).toOption.any
      (fun run => run.outcome.toOption.any fun _ => true) = true := by decide +kernel
  obtain ⟨run, output, hrun, houtput, _⟩ := exists_output hok
  exact ⟨run, output, hrun, houtput⟩

end TwinLedger
