import TwinLedger.Block.Processor
import TwinLedger.Proofs.Block.Comparison
import TwinLedger.Proofs.World.Writes

/-!
# What the cross-check decides

The two executors that are run beside each other may be any two functions of the context, the
message, the state and the pool, also such that write and then fail, or such that look at what is
beside the contents of a state. As long as the gas they report can be added to what the block has
used, both runs end, and the verdict is a decision (`Decides`):

> a transaction passes exactly if the two sides agree on it, and otherwise the error carries the
> first difference; what passes is the same from either seat.

The last part rests on two things. A state that went with a receipt is finalised, and finalising it
once more for the comparison changes nothing (`finalise_of_applyWith`), so the states that were
compared are the states that are committed. And the check runs on copies, which have nothing beside
their contents: the run that is committed is the run that was checked if the live state has nothing
either, or if the executor does not look (`applyWith_of_copy`). One that goes back to a checkpoint
of the live state finds it where its run counts and did not find it where it was checked. The pools
are not among what is compared (`verify_withPool`).
-/

namespace TwinLedger

open WorldState (contents)

/-- An executor that has an answer to every message, a right or a wrong one. -/
abbrev TotalExecutor (σ : Type := World) := BlockContext → Message → σ → GasPool → Execution σ

section

variable {σ : Type}

def TotalExecutor.executor (f : TotalExecutor σ) : Executor σ :=
  fun ctx m w pool => .ok (f ctx m w pool)

/-- The gas that an executor reports for a transaction, zero where it reports none. -/
def reportedGas (chain : Chain) (f : TotalExecutor σ) (author : Option Address) (header : Header)
    (tx : Transaction) (live : Live σ) : U64 :=
  match (Signer.forBlock chain.config header.number).asMessage tx with
  | .error _ => 0
  | .ok message =>
    let coinbase := author.getD (chain.author header)
    let ctx := BlockContext.ofHeader message header coinbase chain.config
    match (f ctx message live.world live.pool).result with
    | .error _ => 0
    | .ok result => result.gasUsed

/-- An executor that always reports the same gas reports it for every transaction with a
sender. -/
theorem reportedGas_of_const {chain : Chain} {f : TotalExecutor σ} {header : Header}
    {tx : Transaction} {message : Message} {gas : U64}
    (hmessage : (Signer.forBlock chain.config header.number).asMessage tx = .ok message)
    (hresult : ∀ ctx m s pool, ∃ r, (f ctx m s pool).result = .ok r ∧ r.gasUsed = gas)
    (author : Option Address) (live : Live σ) :
    reportedGas chain f author header tx live = gas := by
  unfold reportedGas
  rw [hmessage]
  obtain ⟨r, hr, hgas⟩ := hresult (.ofHeader message header (author.getD (chain.author header))
    chain.config) message live.world live.pool
  simp only [hr, hgas]

/-! ## What a run with one executor leaves -/

variable [WorldState σ]

/-- An executor that answers every message answers a transaction, if the gas it reports can be
added to what the block has used. -/
theorem applyWith_total (chain : Chain) (f : TotalExecutor σ) (author : Option Address)
    (header : Header) (tx : Transaction) (live : Live σ)
    (hgas : live.usedGas.toNat + (reportedGas chain f author header tx live).toNat <
      Word.range 64) :
    ∃ applied, applyWith chain f.executor author header tx live = .ok applied := by
  unfold reportedGas at hgas
  unfold applyWith
  cases hmessage : (Signer.forBlock chain.config header.number).asMessage tx with
  | error e => exact ⟨_, rfl⟩
  | ok message =>
    rw [hmessage] at hgas
    simp only [TotalExecutor.executor, bind, Except.bind] at hgas ⊢
    generalize f _ message live.world live.pool = x at hgas ⊢
    cases hresult : x.result with
    | error e => exact ⟨_, rfl⟩
    | ok result =>
      rw [hresult] at hgas
      simp only [Word.add_of_lt hgas]
      exact ⟨_, rfl⟩

/-- How a transaction ends that goes through one executor. -/
inductive AppliedAs (chain : Chain) (executor : Executor σ) (author : Option Address)
    (header : Header) (tx : Transaction) (live : Live σ) : Applied σ → Prop
  /-- It has no sender, and nothing has run. -/
  | unsigned {e : SignerError}
      (hmessage : (Signer.forBlock chain.config header.number).asMessage tx = .error e) :
      AppliedAs chain executor author header tx live ⟨.error (.sender e), live⟩
  /-- Its message was refused. -/
  | refused {m : Message} {x : Execution σ} {e : ExecutionError}
      (hmessage : (Signer.forBlock chain.config header.number).asMessage tx = .ok m)
      (hx : executor (.ofHeader m header (author.getD (chain.author header)) chain.config) m
        live.world live.pool = .ok x)
      (hresult : x.result = .error e) :
      AppliedAs chain executor author header tx live
        ⟨.error (.execution e), { live with world := x.world, pool := x.pool }⟩
  /-- Its message was included, and the world is finalised. -/
  | included {m : Message} {x : Execution σ} {r : ExecutionResult} {usedGas : U64}
      (hmessage : (Signer.forBlock chain.config header.number).asMessage tx = .ok m)
      (hx : executor (.ofHeader m header (author.getD (chain.author header)) chain.config) m
        live.world live.pool = .ok x)
      (hresult : x.result = .ok r) (hused : live.usedGas.add r.gasUsed = .ok usedGas) :
      AppliedAs chain executor author header tx live
        ⟨.ok (.ofExecution header tx m (chain.config.rules header.number)
            (contents (WorldState.finalise x.world (chain.config.isEip158 header.number))) r
            usedGas, r.gasUsed),
          ⟨WorldState.finalise x.world (chain.config.isEip158 header.number), x.pool, usedGas⟩⟩

section

variable {chain : Chain} {executor : Executor σ} {author : Option Address} {header : Header}
  {tx : Transaction} {live : Live σ} {applied : Applied σ}

theorem appliedAs_of_applyWith
    (h : applyWith chain executor author header tx live = .ok applied) :
    AppliedAs chain executor author header tx live applied := by
  unfold applyWith at h
  split at h
  · next e hmessage =>
    cases h
    exact .unsigned hmessage
  · next m hmessage =>
    obtain ⟨x, hx, hdone⟩ := exists_of_bind h
    split at hdone
    · next e hresult =>
      cases hdone
      exact .refused hmessage hx hresult
    · next r hresult =>
      obtain ⟨usedGas, hused, hreceipt⟩ := exists_of_bind hdone
      cases hreceipt
      exact .included hmessage hx hresult hused

theorem applyWith_of_appliedAs (h : AppliedAs chain executor author header tx live applied) :
    applyWith chain executor author header tx live = .ok applied := by
  unfold applyWith
  cases h with
  | unsigned hmessage => rw [hmessage]
  | refused hmessage hx hresult =>
    rw [hmessage]
    simp only [bind, Except.bind, hx, hresult]
  | included hmessage hx hresult hused =>
    rw [hmessage]
    simp only [bind, Except.bind, hx, hresult, hused]
    rfl

theorem WorldState.finalise_finalise (s : σ) (deleteEmpty : Bool) :
    finalise (finalise s deleteEmpty) deleteEmpty = finalise s deleteEmpty := by
  unfold finalise
  rw [contents_bare, World.finalise_finalise]

/-- A state that went with a receipt is finalised, and the gas of the receipt is counted. -/
theorem finalise_of_applyWith {receipt : Receipt} {gas : U64}
    (h : applyWith chain executor author header tx live = .ok applied)
    (hdone : applied.outcome = .ok (receipt, gas)) :
    WorldState.finalise applied.live.world (chain.config.isEip158 header.number) =
        applied.live.world ∧
      live.usedGas.add gas = .ok applied.live.usedGas := by
  cases appliedAs_of_applyWith h with
  | unsigned hmessage => cases hdone
  | refused hmessage hx hresult => cases hdone
  | included hmessage hx hresult hused =>
    cases hdone
    exact ⟨WorldState.finalise_finalise _ _, hused⟩

end

/-! ## What an executor can see -/

/-- The execution with nothing beside the contents of its world. -/
def Execution.contents (x : Execution σ) : Execution :=
  ⟨x.result, WorldState.contents x.world, x.pool⟩

/-- The executor takes no notice of what is beside the contents of a state. -/
def Executor.ReadsContents (executor : Executor σ) : Prop :=
  ∀ ctx m s s' pool, contents s = contents s' →
    (executor ctx m s pool).map Execution.contents = (executor ctx m s' pool).map Execution.contents

/-- What an executor includes in a copy of the live values it includes in the live values, if these
have nothing beside their contents or the executor does not look. -/
theorem applyWith_of_copy {chain : Chain} {executor : Executor σ} {author : Option Address}
    {header : Header} {tx : Transaction} {live : Live σ} {applied : Applied σ}
    {done : Receipt × U64} (hsees : live.copy = live ∨ executor.ReadsContents)
    (h : applyWith chain executor author header tx live.copy = .ok applied)
    (hdone : applied.outcome = .ok done) :
    applyWith chain executor author header tx live = .ok applied := by
  rcases hsees with hbare | hreads
  · rw [hbare] at h
    exact h
  · cases appliedAs_of_applyWith h with
    | unsigned hmessage => cases hdone
    | refused hmessage hx hresult => cases hdone
    | @included m x r usedGas hmessage hx hresult hused =>
      have hsame := hreads
        (.ofHeader m header (author.getD (chain.author header)) chain.config) m live.copy.world
        live.world live.pool (WorldState.contents_copy live.world)
      have hx' : executor (.ofHeader m header (author.getD (chain.author header)) chain.config) m
          live.copy.world live.pool = .ok x := hx
      rw [hx'] at hsame
      cases hy : executor (.ofHeader m header (author.getD (chain.author header)) chain.config) m
          live.world live.pool with
      | error e =>
        rw [hy] at hsame
        cases hsame
      | ok y =>
        rw [hy] at hsame
        obtain ⟨hresult', hworld, hpool⟩ := Execution.mk.inj (Except.ok.inj hsame)
        -- Finalising reads the contents only, so the two runs end in one state.
        have hfinal : WorldState.finalise y.world (chain.config.isEip158 header.number) =
            WorldState.finalise x.world (chain.config.isEip158 header.number) := by
          unfold WorldState.finalise
          rw [hworld]
        rw [← hfinal, hpool]
        exact applyWith_of_appliedAs (.included hmessage hy (hresult'.symm.trans hresult) hused)

/-! ## The verdict -/

/-- A transaction that passes the check is applied as without it. -/
theorem applyTransaction_of_accepted {chain : Chain} {executors : Executors σ}
    {config : ExecutionConfig} {author : Option Address} {header : Header} {tx : Transaction}
    {live : Live σ} {disk : Disk}
    (h : verify chain executors config.diagnostics author header tx live disk =
      .ok (.ok (), disk)) :
    applyTransaction chain executors config author header tx live disk =
      (applyWith chain (executors.at config.executor) author header tx live).map fun applied =>
        ⟨applied.outcome.mapError .rejected, applied.live, disk⟩ := by
  unfold applyTransaction
  rw [h]
  cases applyWith chain (executors.at config.executor) author header tx live with
  | error e => cases config.verificationEnabled <;> rfl
  | ok applied =>
    obtain ⟨outcome, live'⟩ := applied
    cases config.verificationEnabled <;> cases outcome <;> rfl

/-- What a verdict says of the two sides that it is about. -/
structure Decides (chain : Chain) (executors : Executors σ) (author : Option Address)
    (header : Header) (tx : Transaction) (live : Live σ) (alternate reference : Applied σ)
    (verdict : Except ProcessError Unit) : Prop where
  /-- What passes is what the sides agree on. -/
  accepted_iff : verdict = .ok () ↔
    Agree (chain.config.isEip158 header.number) alternate reference
  /-- What does not pass has the first difference for its mismatch. -/
  refused : ∀ e, verdict = .error e → ∃ m, e.mismatch? = some m ∧
    checkOrder.find? (differs (chain.config.isEip158 header.number) alternate reference) =
      some m.check ∧
    m.check ≠ .errorPresence
  /-- A transaction that passes and is not rejected has one receipt, one gas, one total of gas and
  one state, whichever seat commits it and whether it is checked again. Either there is nothing
  beside the contents of the live state, or the executor of the seat does not look at it. -/
  transparent : verdict = .ok () → ∀ done, reference.outcome = .ok done →
    ∀ (config : ExecutionConfig) (disk : Disk),
      live.copy = live ∨ (executors.at config.executor).ReadsContents → ∃ run,
        applyTransaction chain executors config author header tx live disk = .ok run ∧
        run.outcome = .ok done ∧
        run.live.usedGas = reference.live.usedGas ∧
        run.live.world = reference.live.world

section

variable {chain : Chain} {executors : Executors σ} {author : Option Address} {header : Header}
  {tx : Transaction} {live : Live σ} {alternate reference : Applied σ}
  (halternate : applyWith chain executors.alternate author header tx live.copy = .ok alternate)
  (hreference : applyWith chain executors.reference author header tx live.copy = .ok reference)

include halternate hreference

/-- Sides without a difference pass, and nothing is written. -/
theorem verify_of_agree
    (h : disagreement? (chain.config.isEip158 header.number) alternate reference = none)
    (location : DiagnosticsLocation) (disk : Disk) :
    verify chain executors location author header tx live disk = .ok (.ok (), disk) := by
  unfold verify
  rw [halternate, hreference]
  simp only [bind, Except.bind, h]

/-- A difference is the mismatch of the error, also if the bundle cannot be written. -/
theorem verify_of_disagreement {d : Disagreement}
    (h : disagreement? (chain.config.isEip158 header.number) alternate reference = some d)
    (location : DiagnosticsLocation) (disk : Disk) :
    ∃ e written, verify chain executors location author header tx live disk =
        .ok (.error e, written) ∧ e.mismatch? = some d.mismatch := by
  unfold verify
  rw [halternate, hreference]
  simp only [bind, Except.bind, h]
  split
  · exact ⟨_, _, rfl, rfl⟩
  · exact ⟨_, _, rfl, rfl⟩

/-- Two sides that agree with a receipt leave the same state and have used the same gas. -/
theorem live_of_agree
    (hagree : Agree (chain.config.isEip158 header.number) alternate reference)
    {done : Receipt × U64} (hdone : reference.outcome = .ok done) :
    alternate.outcome = .ok done ∧ alternate.live.usedGas = reference.live.usedGas ∧
      alternate.live.world = reference.live.world := by
  obtain ⟨houtcome, hworld⟩ := hagree
  have hdone' : alternate.outcome = .ok done := by
    unfold Applied.SameOutcome at houtcome
    rw [hdone] at houtcome
    cases h : alternate.outcome with
    | ok done' =>
      rw [h] at houtcome
      exact congrArg Except.ok houtcome
    | error e =>
      rw [h] at houtcome
      exact houtcome.elim
  obtain ⟨hfinal, hused⟩ := finalise_of_applyWith halternate hdone'
  obtain ⟨hfinal', hused'⟩ := finalise_of_applyWith hreference hdone
  rw [hused] at hused'
  -- The comparison finalised states that were finalised already.
  have hstate : WorldState.finalise alternate.live.world (chain.config.isEip158 header.number) =
      WorldState.finalise reference.live.world (chain.config.isEip158 header.number) :=
    congrArg WorldState.bare hworld
  rw [hfinal, hfinal'] at hstate
  exact ⟨hdone', Except.ok.inj hused', hstate⟩

/-- Two runs that end give a verdict, and the verdict is right. -/
theorem decides_of_applied (location : DiagnosticsLocation) (disk : Disk) :
    ∃ verdict written,
      verify chain executors location author header tx live disk = .ok (verdict, written) ∧
      Decides chain executors author header tx live alternate reference verdict := by
  have hagree :=
    disagreement?_eq_none_iff (chain.config.isEip158 header.number) alternate reference
  cases h : disagreement? (chain.config.isEip158 header.number) alternate reference with
  | none =>
    refine ⟨.ok (), disk, verify_of_agree halternate hreference h location disk, ?_, ?_, ?_⟩
    · exact ⟨fun _ => hagree.1 h, fun _ => rfl⟩
    · intro e he
      cases he
    · intro _ done hdone config disk' hsees
      -- Checked again or not, and from either seat, it is one of the two runs that is committed.
      have hseat : ∃ applied,
          applyWith chain (executors.at config.executor) author header tx live = .ok applied ∧
          applied.outcome = .ok done ∧ applied.live.usedGas = reference.live.usedGas ∧
          applied.live.world = reference.live.world := by
        cases hconfig : config.executor with
        | reference =>
          rw [hconfig] at hsees
          exact ⟨reference, applyWith_of_copy hsees hreference hdone, hdone, rfl, rfl⟩
        | alternate =>
          rw [hconfig] at hsees
          obtain ⟨hdone', hlive⟩ := live_of_agree halternate hreference (hagree.1 h) hdone
          exact ⟨alternate, applyWith_of_copy hsees halternate hdone', hdone', hlive⟩
      obtain ⟨applied, happlied, hdone', hused, hworld⟩ := hseat
      have hverify := verify_of_agree halternate hreference h config.diagnostics disk'
      refine ⟨⟨.ok done, applied.live, disk'⟩, ?_, rfl, hused, hworld⟩
      rw [applyTransaction_of_accepted hverify, happlied, Except.map, hdone']
      rfl
  | some d =>
    obtain ⟨e, written, hverify, hmismatch⟩ :=
      verify_of_disagreement halternate hreference h location disk
    refine ⟨.error e, written, hverify, ?_, ?_, ?_⟩
    · constructor
      · intro he
        cases he
      · intro hsame
        rw [hagree.2 hsame] at h
        cases h
    · intro e' he
      cases he
      have hcheck := check_disagreement? (chain.config.isEip158 header.number) alternate reference
      rw [h] at hcheck
      refine ⟨d.mismatch, hmismatch, hcheck.symm, ?_⟩
      -- That an error is on one side only is none of the checks that can fail.
      intro hpresence
      have hmem : d.mismatch.check ∈ checkOrder := List.mem_of_find?_eq_some hcheck.symm
      rw [hpresence] at hmem
      exact absurd hmem (by decide)
    · intro he
      cases he

end

/-! ## Arbitrary executors -/

/-- For any two executors on states of any kind, as long as the gas of the block can be counted:
the check passes exactly what both agree on, otherwise it names the first difference, and what
passes does not depend on the configuration. -/
theorem verify_decides (chain : Chain) (reference alternate : TotalExecutor σ)
    (location : DiagnosticsLocation) (author : Option Address) (header : Header)
    (tx : Transaction) (live : Live σ) (disk : Disk)
    (hreference : live.usedGas.toNat +
      (reportedGas chain reference author header tx live.copy).toNat < Word.range 64)
    (halternate : live.usedGas.toNat +
      (reportedGas chain alternate author header tx live.copy).toNat < Word.range 64) :
    ∃ a r verdict written,
      applyWith chain alternate.executor author header tx live.copy = .ok a ∧
      applyWith chain reference.executor author header tx live.copy = .ok r ∧
      verify chain ⟨reference.executor, alternate.executor⟩ location author header tx live disk =
        .ok (verdict, written) ∧
      Decides chain ⟨reference.executor, alternate.executor⟩ author header tx live a r verdict := by
  obtain ⟨a, ha⟩ := applyWith_total chain alternate author header tx live.copy halternate
  obtain ⟨r, hr⟩ := applyWith_total chain reference author header tx live.copy hreference
  let executors : Executors σ := ⟨reference.executor, alternate.executor⟩
  have ha' : applyWith chain executors.alternate author header tx live.copy = .ok a := ha
  have hr' : applyWith chain executors.reference author header tx live.copy = .ok r := hr
  obtain ⟨verdict, written, hverify, hdecides⟩ := decides_of_applied ha' hr' location disk
  exact ⟨a, r, verdict, written, ha, hr, hverify, hdecides⟩

end

/-! ## Executors that report a result -/

section

variable {σ : Type}

/-- The executor with something else done to the pool of every message that it is given. -/
def Executor.withPool (executor : Executor σ) (g : GasPool → GasPool) : Executor σ :=
  fun ctx m w pool => (executor ctx m w pool).map fun x => { x with pool := g x.pool }

variable [WorldState σ]

/-- A reported result that can be counted becomes a receipt, and world and pool are the
executor's. -/
theorem applyWith_of_result {chain : Chain} (executor : Executor σ) (author : Option Address)
    {header : Header} {tx : Transaction} (live : Live σ) {message : Message}
    {result : ExecutionResult} {world : σ} {pool : GasPool} {usedGas : U64}
    (hmessage : (Signer.forBlock chain.config header.number).asMessage tx = .ok message)
    (hrun : ∀ ctx, executor ctx message live.world live.pool = .ok ⟨.ok result, world, pool⟩)
    (hused : live.usedGas.add result.gasUsed = .ok usedGas) :
    ∃ receipt, applyWith chain executor author header tx live =
      .ok ⟨.ok (receipt, result.gasUsed),
        ⟨WorldState.finalise world (chain.config.isEip158 header.number), pool, usedGas⟩⟩ :=
  ⟨_, applyWith_of_appliedAs (.included hmessage (hrun _) rfl hused)⟩

/-- Outcome, world and gas used do not depend on the pool that is left. -/
theorem applyWith_withPool (chain : Chain) (executor : Executor σ) (g : GasPool → GasPool)
    (author : Option Address) (header : Header) (tx : Transaction) (live : Live σ) :
    ∃ g' : GasPool → GasPool, applyWith chain (executor.withPool g) author header tx live =
      (applyWith chain executor author header tx live).map fun applied =>
        { applied with live := { applied.live with pool := g' applied.live.pool } } := by
  unfold applyWith
  cases (Signer.forBlock chain.config header.number).asMessage tx with
  | error e => exact ⟨id, rfl⟩
  | ok message =>
    refine ⟨g, ?_⟩
    simp only [Executor.withPool, bind, Except.bind]
    generalize executor _ message live.world live.pool = run
    cases run with
    | error e => rfl
    | ok x =>
      obtain ⟨result, world, pool⟩ := x
      cases result with
      | error e => rfl
      | ok result =>
        simp only [Except.map]
        cases live.usedGas.add result.gasUsed with
        | error e => rfl
        | ok usedGas => rfl

/-- The verdict does not depend on what an executor does to the pool: one that does not give back
the gas it did not use passes for one that does. -/
theorem verify_withPool (chain : Chain) (reference alternate : Executor σ) (g : GasPool → GasPool)
    (location : DiagnosticsLocation) (author : Option Address) (header : Header)
    (tx : Transaction) (live : Live σ) (disk : Disk) :
    verify chain ⟨reference, alternate.withPool g⟩ location author header tx live disk =
      verify chain ⟨reference, alternate⟩ location author header tx live disk := by
  obtain ⟨g', hrun⟩ := applyWith_withPool chain alternate g author header tx live.copy
  unfold verify
  simp only
  rw [hrun]
  cases applyWith chain alternate author header tx live.copy with
  | error e => rfl
  | ok applied =>
    simp only [Except.map, bind, Except.bind]
    cases applyWith chain reference author header tx live.copy with
    | error e => rfl
    | ok r =>
      simp only
      generalize hlost : (⟨applied.outcome, ⟨applied.live.world, g' applied.live.pool,
        applied.live.usedGas⟩⟩ : Applied σ) = lost
      have houtcome : lost.outcome = applied.outcome := by rw [← hlost]
      have hworld : lost.contents = applied.contents := by rw [← hlost]; rfl
      rw [disagreement?_congr houtcome hworld]
      simp only [bundle_congr houtcome]

end

/-! ## An example -/

/-- A chain without forks. -/
def plainChain : Chain := ⟨.frontier 1, Header.coinbase⟩

/-- An empty world with gas for one transfer. -/
def plainLive : Live := { world := {}, pool := ⟨21000⟩ }

/-- A world with a checkpoint from before an account got its nonce, and gas for one transfer. -/
def checkpointedLive : Live Journaled where
  world := ({} : Journaled).snapshot.1.modify (·.setNonce 0 9)
  pool := ⟨21000⟩

/-- A transaction with the neutral point for its key and its signature, which holds for every
message. -/
def neutralTransaction : Transaction where
  gasLimit := 21000
  recipient := some 0
  publicKey := .ofBytes (Bytes.littleEndian 32 1)
  signature := .ofBytes (Bytes.littleEndian 64 1)

theorem exists_neutralMessage :
    ∃ message, (Signer.forBlock plainChain.config ({} : Header).number).asMessage
      neutralTransaction = .ok message := by
  have hsome : ((Signer.forBlock plainChain.config ({} : Header).number).asMessage
      neutralTransaction).toOption.isSome = true := by decide +kernel
  cases h : (Signer.forBlock plainChain.config ({} : Header).number).asMessage
      neutralTransaction with
  | error e =>
    rw [h] at hsome
    cases hsome
  | ok message => exact ⟨message, rfl⟩

/-- Does nothing and reports the gas of a transfer. -/
def idle {σ : Type} : TotalExecutor σ := fun _ _ s pool => ⟨.ok ⟨[], 21000, false⟩, s, pool⟩

/-- Reports the gas of a transfer and leaves a refund behind, which finalising takes away. -/
def refunding : TotalExecutor Journaled := fun _ _ s pool =>
  ⟨.ok ⟨[], 21000, false⟩, s.modify (·.addRefund 7), pool⟩

theorem readsContents_refunding : refunding.executor.ReadsContents := by
  intro ctx m s s' pool h
  have hworld : s.world = s'.world := h
  show Except.ok (⟨.ok ⟨[], 21000, false⟩, s.world.addRefund 7, pool⟩ : Execution) =
    .ok ⟨.ok ⟨[], 21000, false⟩, s'.world.addRefund 7, pool⟩
  rw [hworld]

/-- Beside a checkpoint, a refund that is left behind does not keep the check from accepting, and
the seat that left it commits what the other has. -/
theorem verify_decides_refunding :
    ∃ a r done run,
      applyWith plainChain refunding.executor none {} neutralTransaction checkpointedLive.copy =
        .ok a ∧
      applyWith plainChain idle.executor none {} neutralTransaction checkpointedLive.copy = .ok r ∧
      verify plainChain ⟨idle.executor, refunding.executor⟩ ⟨"home", "space"⟩ none {}
        neutralTransaction checkpointedLive {} = .ok (.ok (), {}) ∧
      checkpointedLive.copy ≠ checkpointedLive ∧ r.outcome = .ok done ∧
      applyTransaction plainChain ⟨idle.executor, refunding.executor⟩
        ⟨.alternate, .enabled, ⟨"home", "space"⟩⟩ none {} neutralTransaction checkpointedLive {} =
          .ok run ∧
      run.outcome = .ok done ∧ run.live.world = r.live.world := by
  obtain ⟨message, hmessage⟩ := exists_neutralMessage
  have hreports : ∀ f : TotalExecutor Journaled,
      (∀ ctx m s pool, ∃ r, (f ctx m s pool).result = .ok r ∧ r.gasUsed = 21000) →
      checkpointedLive.usedGas.toNat + (reportedGas plainChain f none {} neutralTransaction
        checkpointedLive.copy).toNat < Word.range 64 := by
    intro f hf
    rw [reportedGas_of_const hmessage hf]
    decide
  obtain ⟨a, r, verdict, written, ha, hr, hverify, hdecides⟩ := verify_decides plainChain idle
    refunding ⟨"home", "space"⟩ none {} neutralTransaction checkpointedLive {}
    (hreports _ fun _ _ _ _ => ⟨_, rfl, rfl⟩) (hreports _ fun _ _ _ _ => ⟨_, rfl, rfl⟩)
  have hused : checkpointedLive.usedGas.add 21000 = .ok 21000 := rfl
  -- Finalising takes the refund away, so both runs leave the same.
  have ha' : applyWith plainChain refunding.executor none {} neutralTransaction
      checkpointedLive.copy = .ok _ :=
    applyWith_of_appliedAs (.included hmessage rfl rfl hused)
  have hr' : applyWith plainChain idle.executor none {} neutralTransaction
      checkpointedLive.copy = .ok _ :=
    applyWith_of_appliedAs (.included hmessage rfl rfl hused)
  have hsame : a = r :=
    (Except.ok.inj (ha.symm.trans ha')).trans (Except.ok.inj (hr'.symm.trans hr))
  have hdone := congrArg Applied.outcome (Except.ok.inj (hr.symm.trans hr'))
  have hagree : Agree (plainChain.config.isEip158 0) a r := hsame ▸ agree_refl _ _
  let executors : Executors Journaled := ⟨idle.executor, refunding.executor⟩
  have halternate : applyWith plainChain executors.alternate none {} neutralTransaction
      checkpointedLive.copy = .ok a := ha
  have hquiet := verify_of_agree halternate hr ((disagreement?_eq_none_iff _ _ _).2 hagree)
    ⟨"home", "space"⟩ {}
  obtain ⟨run, hrun, houtcome, -, hworld⟩ := hdecides.transparent
    (hdecides.accepted_iff.2 hagree) _ hdone ⟨.alternate, .enabled, ⟨"home", "space"⟩⟩ {}
    (Or.inr readsContents_refunding)
  exact ⟨a, r, _, run, ha, hr, hquiet, by decide, hdone, hrun, houtcome, hworld⟩

/-- Goes back to the first checkpoint and reports the gas of a transfer. -/
def reverting : TotalExecutor Journaled := fun _ _ s pool =>
  ⟨.ok ⟨[], 21000, false⟩, s.revert 0, pool⟩

/-- On a copy there is nothing to go back to. An executor that goes back to a checkpoint which was
laid before the transaction agrees with itself in both seats, and what is committed is not what was
checked. -/
theorem exists_accepted_world_ne :
    ∃ r done run,
      applyWith plainChain reverting.executor none {} neutralTransaction checkpointedLive.copy =
        .ok r ∧
      r.outcome = .ok done ∧
      verify plainChain ⟨reverting.executor, reverting.executor⟩ ⟨"home", "space"⟩ none {}
        neutralTransaction checkpointedLive {} = .ok (.ok (), {}) ∧
      applyTransaction plainChain ⟨reverting.executor, reverting.executor⟩
        ⟨.reference, .enabled, ⟨"home", "space"⟩⟩ none {} neutralTransaction checkpointedLive {} =
          .ok run ∧
      r.live.world.world.nonce 0 = 9 ∧ run.live.world.world.nonce 0 = 0 ∧
      run.live.world ≠ r.live.world := by
  obtain ⟨message, hmessage⟩ := exists_neutralMessage
  have hused : checkpointedLive.usedGas.add 21000 = .ok 21000 := rfl
  let executors : Executors Journaled := ⟨reverting.executor, reverting.executor⟩
  obtain ⟨receipt, hr⟩ := applyWith_of_result reverting.executor none checkpointedLive.copy
    hmessage (fun _ => rfl) hused
  obtain ⟨receipt', hrun⟩ := applyWith_of_result reverting.executor none checkpointedLive
    hmessage (fun _ => rfl) hused
  have hboth : applyWith plainChain executors.alternate none {} neutralTransaction
      checkpointedLive.copy = _ := hr
  let config : ExecutionConfig := ⟨.reference, .enabled, ⟨"home", "space"⟩⟩
  have hverify : verify plainChain executors config.diagnostics none {} neutralTransaction
      checkpointedLive {} = .ok (.ok (), {}) :=
    verify_of_agree hboth hr (disagreement?_self _ _) config.diagnostics {}
  have happlied := applyTransaction_of_accepted hverify
  have hseat : applyWith plainChain (executors.at config.executor) none {} neutralTransaction
      checkpointedLive = _ := hrun
  rw [hseat] at happlied
  have hchecked : (WorldState.finalise (checkpointedLive.copy.world.revert 0)
      (plainChain.config.isEip158 0)).world.nonce 0 = 9 := by decide
  have hcommitted : (WorldState.finalise (checkpointedLive.world.revert 0)
      (plainChain.config.isEip158 0)).world.nonce 0 = 0 := by decide
  refine ⟨_, _, _, hr, rfl, hverify, happlied, hchecked, hcommitted, ?_⟩
  intro heq
  have hnonce := congrArg (fun s : Journaled => s.world.nonce 0) heq
  exact absurd (hcommitted.symm.trans (hnonce.trans hchecked)) (by decide)

/-- Two executors that pass the check with a receipt, and leave different pools. -/
theorem exists_accepted_pool_ne :
    ∃ a r,
      applyWith plainChain (idle.executor.withPool fun _ => ⟨0⟩) none {} neutralTransaction
        plainLive = .ok a ∧
      applyWith plainChain idle.executor none {} neutralTransaction plainLive = .ok r ∧
      a.outcome.isOk ∧ r.outcome.isOk ∧
      (∀ location disk, verify plainChain ⟨idle.executor, idle.executor.withPool fun _ => ⟨0⟩⟩
        location none {} neutralTransaction plainLive disk = .ok (.ok (), disk)) ∧
      a.live.pool ≠ r.live.pool := by
  obtain ⟨message, hmessage⟩ := exists_neutralMessage
  have hused : plainLive.usedGas.add 21000 = .ok 21000 := rfl
  obtain ⟨receipt, ha⟩ := applyWith_of_result (idle.executor.withPool fun _ => ⟨0⟩) none
    plainLive hmessage (fun _ => rfl) hused
  obtain ⟨receipt', hr⟩ := applyWith_of_result idle.executor none plainLive hmessage (fun _ => rfl)
    hused
  refine ⟨_, _, ha, hr, rfl, rfl, ?_, ?_⟩
  · intro location disk
    let executors : Executors := ⟨idle.executor, idle.executor⟩
    have hleft : applyWith plainChain executors.alternate none {} neutralTransaction
        plainLive.copy = _ := hr
    rw [verify_withPool]
    exact verify_of_agree hleft hr (disagreement?_self _ _) location disk
  · show (⟨0⟩ : GasPool) ≠ ⟨21000⟩
    decide

end TwinLedger
