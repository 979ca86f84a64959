import TwinLedger.Proofs.Block.Run
import TwinLedger.Proofs.Execution.Identity

/-!
# No transaction happens twice

A transaction names the nonce of its sender, and being included raises it. So a transaction can
only come again if something takes the nonce back. No message does (`Enacted.keeps`), and neither
does finalising, which deletes accounts, because an account with a nonce is not empty.

A block then only lets nonces grow (`Passage.grows`), and of one sender the transactions carry
successive nonces, whatever happens between them (`Passage.nonce_succ`).
-/

namespace TwinLedger

/-! ## One transaction -/

namespace Inclusion

variable {chain : Chain} {header : Header} {index : Nat} {tx : Transaction} {before after : Live}
  {m : Message} {x : Execution} {r : ExecutionResult} {receipt : Receipt}

/-- Between the purchase of the gas and the end of a transaction, accounts are kept. -/
theorem exists_keeps (h : Inclusion chain header index tx before m x r receipt after) :
    ∃ a : Admission, (a.world m (before.stamped header index tx).world).Keeps after.world ∧
      before.world.nonce m.sender = tx.nonce ∧ before.world.nonce m.sender ≠ .max := by
  obtain ⟨a, v, left, hincluded⟩ := h.included
  have hkeeps := hincluded.enacted.keeps
  have hsettled := hincluded.world_frame Account.identity fun _ _ => rfl
  have hnonce : m.nonce = tx.nonce := by
    rw [(message_of_asMessage h.message).2]
    rfl
  refine ⟨a, ⟨?_, ?_⟩, hincluded.admitted.nonce.trans hnonce, hincluded.admitted.nonce_ne_max⟩
  · intro b hb
    rw [h.world, World.nonce_finalise, ← hkeeps.nonce b hb]
    exact congrArg Prod.fst (hsettled b)
  · intro b hb
    rw [h.world, World.code_finalise, ← hkeeps.code b hb]
    exact congrArg Prod.snd (hsettled b)

/-- The transaction carries the nonce of its sender and raises it. -/
theorem nonce_sender (h : Inclusion chain header index tx before m x r receipt after) :
    before.world.nonce m.sender = tx.nonce ∧
      (after.world.nonce m.sender).toNat = tx.nonce.toNat + 1 := by
  obtain ⟨a, hkeeps, hnonce, hmax⟩ := h.exists_keeps
  have hraised : ((a.world m (before.stamped header index tx).world).nonce m.sender).toNat =
      tx.nonce.toNat + 1 := by
    rw [← hnonce]
    exact Admission.nonce_world_self hmax
  have hne : (a.world m (before.stamped header index tx).world).nonce m.sender ≠ 0 := by
    intro hzero
    rw [hzero] at hraised
    cases hraised
  exact ⟨hnonce, by rw [hkeeps.nonce m.sender hne, hraised]⟩

/-- The nonces of others are left alone. -/
theorem nonce_of_ne (h : Inclusion chain header index tx before m x r receipt after) {b : Address}
    (hb : b ≠ m.sender) (hnonce : before.world.nonce b ≠ 0) :
    after.world.nonce b = before.world.nonce b := by
  obtain ⟨a, hkeeps, _, _⟩ := h.exists_keeps
  have hsame : (a.world m (before.stamped header index tx).world).nonce b =
      before.world.nonce b := Admission.nonce_world_of_ne hb
  rw [hkeeps.nonce b (by rw [hsame]; exact hnonce), hsame]

theorem grows (h : Inclusion chain header index tx before m x r receipt after) :
    before.world.Grows after.world := by
  obtain ⟨a, hkeeps, _, hmax⟩ := h.exists_keeps
  have hcounted : (before.stamped header index tx).world.Grows
      (a.world m (before.stamped header index tx).world) := Admission.grows_world hmax
  exact ((World.Keeps.prepare before.world _).grows.trans hcounted).trans hkeeps.grows

end Inclusion

/-! ## One transaction after the other -/

namespace Passage

variable {chain : Chain} {header : Header} {index : Nat} {txs : List Transaction}
  {before after : Live} {receipts : List Receipt}

theorem grows (h : Passage chain header index txs before receipts after) :
    before.world.Grows after.world := by
  induction h with
  | done index live => exact .refl _
  | next first _ ih => exact first.grows.trans ih

/-- A nonce is raised by the transactions of its account alone. -/
theorem nonce_of_not_sender {a : Address}
    (h : Passage chain header index txs before receipts after)
    (hothers : ∀ tx ∈ txs, chain.sender header tx ≠ .ok a) (hnonce : before.world.nonce a ≠ 0) :
    after.world.nonce a = before.world.nonce a := by
  induction h with
  | done index live => rfl
  | next first _ ih =>
    have hstep := first.nonce_of_ne
      (fun heq => hothers _ List.mem_cons_self (by rw [heq]; exact first.sender)) hnonce
    rw [ih (fun tx htx => hothers tx (List.mem_cons_of_mem _ htx)) (by rw [hstep]; exact hnonce),
      hstep]

/-- The transactions of an account carry no nonce below the one that the account has. -/
theorem nonce_le_of_mem {a : Address} (h : Passage chain header index txs before receipts after)
    {tx : Transaction} (htx : tx ∈ txs) (hsender : chain.sender header tx = .ok a) :
    before.world.nonce a ≤ tx.nonce := by
  induction h with
  | done index live => cases htx
  | next first _ ih =>
    rcases List.mem_cons.1 htx with rfl | hlater
    · rw [← Except.ok.inj (first.sender.symm.trans hsender), first.nonce_sender.1]
      exact Nat.le_refl _
    · exact Nat.le_trans (first.grows.nonce_le a) (ih hlater)

/-- The transactions of an account carry larger and larger nonces. -/
theorem nonce_pairwise (h : Passage chain header index txs before receipts after) :
    txs.Pairwise fun t t' => ∀ a, chain.sender header t = .ok a →
      chain.sender header t' = .ok a → t.nonce < t'.nonce := by
  induction h with
  | done index live => exact .nil
  | next first later ih =>
    refine List.pairwise_cons.2 ⟨?_, ih⟩
    intro t' ht' a hsender hsender'
    have hraised := first.nonce_sender.2
    rw [Except.ok.inj (first.sender.symm.trans hsender)] at hraised
    have hbound := Word.le_iff.1 (later.nonce_le_of_mem ht' hsender')
    exact Word.lt_iff.2 (by omega)

/-- Of an account, the next transaction carries the next nonce. -/
theorem nonce_succ {front mid back : List Transaction} {t t' : Transaction} {a : Address}
    (h : Passage chain header index (front ++ t :: (mid ++ t' :: back)) before receipts after)
    (hsender : chain.sender header t = .ok a) (hsender' : chain.sender header t' = .ok a)
    (hothers : ∀ tx ∈ mid, chain.sender header tx ≠ .ok a) :
    t'.nonce.toNat = t.nonce.toNat + 1 := by
  obtain ⟨_, _, _, _, _, htail⟩ := h.split_append
  cases htail with
  | next first later =>
    obtain ⟨_, _, _, _, hmid, hlast⟩ := later.split_append
    cases hlast with
    | next second _ =>
      have hraised := first.nonce_sender.2
      rw [Except.ok.inj (first.sender.symm.trans hsender)] at hraised
      have hcarried := second.nonce_sender.1
      rw [Except.ok.inj (second.sender.symm.trans hsender')] at hcarried
      have hkept := hmid.nonce_of_not_sender hothers (by
        intro hzero
        rw [hzero] at hraised
        cases hraised)
      rw [← hcarried, hkept, hraised]

end Passage

/-! ## Blocks -/

section

variable {chain : Chain} {config : ExecutionConfig} {block : Block} {w : World} {disk : Disk}

theorem grows_openBlock (chain : Chain) (header : Header) (w : World) :
    w.Grows (openBlock chain header w) :=
  (World.Keeps.of_identity
    (openBlock_frame Account.identity (fun _ _ => rfl) chain header w)).grows

/-- Nothing is taken back between one transaction and a later one. -/
theorem grows_of_runUpTo {i k : Nat} {before after : TransactionsRun}
    (hbefore : runUpTo chain .stock config block w disk i = .ok before)
    (hafter : runUpTo chain .stock config block w disk (i + k) = .ok after) :
    before.live.world.Grows after.live.world := by
  cases hearly : before.outcome with
  | error e =>
    rw [runUpTo_add, hbefore] at hafter
    simp only [bind, Except.bind, hearly] at hafter
    cases hafter
    exact .refl _
  | ok early =>
    rcases runUpTo_resume hbefore hearly hafter with
      ⟨late, hpassage, _⟩ | ⟨front, tx, back, late, live, e, _, hpassage, _, hlive⟩
    · exact hpassage.grows
    · rw [hlive]
      exact hpassage.grows.trans (World.Keeps.prepare live.world _).grows

/-- What any number of transactions leave grows out of the world before the block, and the world
after the block grows out of it. -/
theorem grows_runUpTo_grows {run : BlockRun} {i : Nat} {before : TransactionsRun}
    (h : process chain .idle .stock config block w disk = .ok run)
    (hbefore : runUpTo chain .stock config block w disk i = .ok before) :
    w.Grows before.live.world ∧ before.live.world.Grows run.world := by
  refine ⟨?_, ?_⟩
  · rw [← Nat.zero_add i] at hbefore
    exact (grows_openBlock chain block.header w).trans (grows_of_runUpTo runUpTo_zero hbefore)
  · cases hearly : before.outcome with
    | error e =>
      rw [(process_of_rejected hbefore hearly h).2]
      exact .refl _
    | ok early =>
      obtain ⟨_, _, _, live, stamp, hpassage, hworld⟩ := passage_of_process hbefore hearly h
      rw [hworld]
      exact hpassage.grows.trans (World.Keeps.prepare live.world _).grows

/-- Nothing is taken back in a block, however it ends. In a block that is processed to the end, the
next transaction of a sender carries the next nonce, whatever the transactions between the two do,
and so no two transactions of a sender carry the same. -/
theorem process_no_replay {run : BlockRun}
    (h : process chain .idle .stock config block w disk = .ok run) :
    w.Grows run.world ∧
    (∀ i k before after, runUpTo chain .stock config block w disk i = .ok before →
      runUpTo chain .stock config block w disk (i + k) = .ok after →
      w.Grows before.live.world ∧ before.live.world.Grows after.live.world ∧
        after.live.world.Grows run.world) ∧
    ∀ output, run.outcome = .ok output →
      (∀ front t mid t' back a, block.transactions = front ++ t :: (mid ++ t' :: back) →
        chain.sender block.header t = .ok a → chain.sender block.header t' = .ok a →
        (∀ tx ∈ mid, chain.sender block.header tx ≠ .ok a) →
        t'.nonce.toNat = t.nonce.toNat + 1) ∧
      block.transactions.Pairwise fun t t' => ∀ a, chain.sender block.header t = .ok a →
        chain.sender block.header t' = .ok a → t.nonce < t'.nonce := by
  refine ⟨?_, ?_, ?_⟩
  · obtain ⟨hopen, hrun⟩ := grows_runUpTo_grows h runUpTo_zero
    exact hopen.trans hrun
  · intro i k before after hbefore hafter
    exact ⟨(grows_runUpTo_grows h hbefore).1, grows_of_runUpTo hbefore hafter,
      (grows_runUpTo_grows h hafter).2⟩
  · intro output houtput
    rcases process_cases h with
      ⟨receipts, live, hpassage, _, _⟩ | ⟨_, _, _, _, _, _, _, _, herror, _⟩
    · refine ⟨?_, hpassage.nonce_pairwise⟩
      intro front t mid t' back a htxs hsender hsender' hothers
      rw [htxs] at hpassage
      exact hpassage.nonce_succ hsender hsender' hothers
    · cases houtput.symm.trans herror

/-- A block in which one account sends twice. -/
theorem process_no_replay_drain :
    ∃ run, process drainChain .idle .stock uncheckedConfig drainBlock drainWorld {} = .ok run ∧
      drainWorld.Grows run.world ∧
      drainBlock.transactions.Pairwise fun t t' => ∀ a,
        drainChain.sender drainBlock.header t = .ok a →
        drainChain.sender drainBlock.header t' = .ok a → t.nonce < t'.nonce := by
  obtain ⟨run, output, hrun, houtput⟩ := exists_drainOutput
  obtain ⟨hgrows, _, hall⟩ := process_no_replay hrun
  exact ⟨run, hrun, hgrows, (hall output houtput).2⟩

end

end TwinLedger
