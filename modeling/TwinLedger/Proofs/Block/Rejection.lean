import TwinLedger.Proofs.Block.Transparency
import TwinLedger.Proofs.Execution.Requirements
import TwinLedger.Proofs.Execution.Totality

/-!
# What is rejected

A message that misses a requirement is answered with the error of the first one that it misses, and
nothing else happens: no account is touched, no gas is bought. A message that meets all of them is
included, however its call ends.

> `Refuses`: the answer of an executor as a rule, in both directions, and the values that it leaves
> after a refusal.

Both executors of the ledger keep the rule (`refuses_inPlace`). A transaction is then rejected for
its sender, which is found before anything runs, or for a requirement, so that a block builder who
passes over it goes on with the values that were there before (`live_of_rejected`), whether the
check of the executors is on or not.
-/

namespace TwinLedger

/-- What a message is refused for, and that a refusal is all that happens. -/
structure Refuses (executor : Executor) : Prop where
  /-- An error is the answer if and only if it belongs to the first requirement missed. -/
  error_iff : ∀ ctx m w pool e, (∃ x, executor ctx m w pool = .ok x ∧ x.result = .error e) ↔
    ∃ r, Requirement.FirstMissed ctx m w pool r ∧ r.error ctx m w pool = e
  /-- After an error world and pool are those from before. -/
  unchanged : ∀ ctx m w pool x e, executor ctx m w pool = .ok x → x.result = .error e →
    x.world = w ∧ x.pool = pool
  /-- A message that meets all requirements is included. -/
  included : ∀ ctx m w pool, (∀ r ∈ Requirement.order, r.Met ctx m w pool) →
    Gas.codeByte * m.data.length < Word.range 64 →
    ∃ x r, executor ctx m w pool = .ok x ∧ x.result = .ok r

namespace InPlace

variable {ctx : BlockContext} {m : Message} {w : World} {pool : GasPool}

/-- The answer of the checks is the answer of the executor. -/
theorem apply_of_refusal {e : ExecutionError} (h : refusal? ctx m w pool = some e) :
    apply ctx m w pool = .ok ⟨.error e, w, pool⟩ := by
  rw [refusal?_eq] at h
  cases hadmission : admission ctx m w pool with
  | error e' =>
    rw [hadmission] at h
    cases h
    exact apply_eq_ok_iff.2 (Or.inl ⟨e, hadmission, rfl⟩)
  | ok a =>
    rw [hadmission] at h
    cases h

/-- A message that was answered with an error has been refused. -/
theorem refusal_of_apply {x : Execution} {e : ExecutionError} (h : apply ctx m w pool = .ok x)
    (he : x.result = .error e) : refusal? ctx m w pool = some e ∧ x = ⟨.error e, w, pool⟩ := by
  rcases apply_eq_ok_iff.1 h with ⟨e', hadmission, rfl⟩ | ⟨a, f, hsettled⟩
  · cases he
    rw [refusal?_eq, hadmission]
    exact ⟨rfl, rfl⟩
  · rw [hsettled.included.result] at he
    cases he

/-- The executor that writes in place keeps the rule. -/
theorem refuses : Refuses apply where
  error_iff := by
    intro ctx m w pool e
    rw [← refusal?_eq_some_iff]
    constructor
    · rintro ⟨x, hx, he⟩
      exact (refusal_of_apply hx he).1
    · intro h
      exact ⟨_, apply_of_refusal h, rfl⟩
  unchanged := by
    intro ctx m w pool x e hx he
    rw [(refusal_of_apply hx he).2]
    exact ⟨rfl, rfl⟩
  included := by
    intro ctx m w pool hmet hdata
    obtain ⟨x, hx⟩ := exists_apply hdata ctx w pool
    cases hresult : x.result with
    | ok r => exact ⟨x, r, hx, hresult⟩
    | error e =>
      have hnone := refusal?_eq_none_iff.2 hmet
      rw [(refusal_of_apply hx hresult).1] at hnone
      cases hnone

end InPlace

/-! ## Transactions -/

/-- A transaction that one executor does not apply leaves the live values alone, if the executor
does so with a message. -/
theorem live_of_applyWith_error {chain : Chain} {executor : Executor} (h : Refuses executor)
    {author : Option Address} {header : Header} {tx : Transaction} {live : Live} {applied : Applied}
    {e : Rejection} (happlied : applyWith chain executor author header tx live = .ok applied)
    (herror : applied.outcome = .error e) : applied.live = live := by
  cases appliedAs_of_applyWith happlied with
  | unsigned hmessage => rfl
  | @refused m x e' hmessage hx hresult =>
    obtain ⟨hworld, hpool⟩ := h.unchanged _ _ _ _ x e' hx hresult
    simp only [hworld, hpool]
  | included hmessage hx hresult hused => cases herror

/-- With the executors of the ledger a transaction that is not applied was rejected, and it leaves
the live values and the disk alone. -/
theorem live_of_rejected {chain : Chain} {config : ExecutionConfig} {author : Option Address}
    {header : Header} {tx : Transaction} {live : Live} {disk : Disk} {run : TransactionRun}
    {e : ProcessError}
    (h : applyTransaction chain .stock config author header tx live disk = .ok run)
    (herror : run.outcome = .error e) :
    (∃ r, e = .rejected r) ∧ run.live = live ∧ run.disk = disk := by
  rw [Executors.stock_eq, applyTransaction_of_same] at h
  cases happlied : applyWith chain InPlace.apply author header tx live with
  | error e' =>
    rw [happlied] at h
    cases h
  | ok applied =>
    rw [happlied] at h
    cases h
    cases houtcome : applied.outcome with
    | ok done =>
      simp only [houtcome] at herror
      cases herror
    | error r =>
      simp only [houtcome] at herror
      cases herror
      exact ⟨⟨r, rfl⟩, live_of_applyWith_error InPlace.refuses happlied houtcome, rfl⟩

/-- In either seat, the executor answers a message with the error of the first requirement that it
misses, if it misses one, and leaves world and pool as they were; and whatever the configuration, a
transaction that is not applied leaves the world, the pool and the count of gas as they were. -/
theorem rejection_is_atomic :
    (∀ seat, Refuses (Executors.stock.at seat)) ∧
    ∀ (chain : Chain) (config : ExecutionConfig) (author : Option Address) (header : Header)
      (tx : Transaction) (live : Live) (disk : Disk) (run : TransactionRun) (e : ProcessError),
      applyTransaction chain .stock config author header tx live disk = .ok run →
      run.outcome = .error e →
      (∃ r, e = .rejected r) ∧ run.live = live ∧ run.disk = disk := by
  refine ⟨?_, ?_⟩
  · intro seat
    rw [Executors.stock_at]
    exact InPlace.refuses
  · intro chain config author header tx live disk run e h herror
    exact live_of_rejected h herror

/-- A transaction that is ahead of its sender, with the check of the executors on. -/
theorem rejection_is_atomic_early :
    ∃ run, applyTransaction plainChain .stock ⟨.alternate, .enabled, ⟨"home", "space"⟩⟩ none {}
        { neutralTransaction with nonce := 1 } plainLive {} = .ok run ∧
      run.outcome.isOk = false ∧ run.live = plainLive := by
  have hanswer : (applyTransaction plainChain .stock ⟨.alternate, .enabled, ⟨"home", "space"⟩⟩ none
      {} { neutralTransaction with nonce := 1 } plainLive {}).toOption.any
      (fun run => !run.outcome.isOk) = true := by decide +kernel
  obtain ⟨run, hrun, hfailed⟩ := exists_of_any hanswer
  refine ⟨run, hrun, by simpa using hfailed, ?_⟩
  cases herror : run.outcome with
  | ok done =>
    rw [herror] at hfailed
    cases hfailed
  | error e => exact (rejection_is_atomic.2 _ _ _ _ _ _ _ run e hrun herror).2.1

end TwinLedger
