import TwinLedger.Proofs.Execution.Settlement

/-!
# Two runs of one program

A program sees little of the world: the slots of its own account. Worlds that agree on these, and go
on agreeing whatever the program writes, are told apart by no run (`Indistinct`), and two runs that
start in such worlds go the same way as long as both can pay.

> `interpret_lockstep`: with some extra gas at the start, the second run ends as the first one did,
> with the same extra gas left.

A run that halts for lack of gas may go on if it has more, so a run that failed is only followed
without extra gas. Step by step the argument is that of one instruction (`perform_lockstep`): it
costs the same in both worlds, and what is left after it differs by what there was before.

What is around the program keeps to that: the call of an account with or without a program
(`enter_lockstep`), the undoing of what failed (`settle_lockstep`), and the gas that is given back
(`Ahead.result_eq`).
-/

namespace TwinLedger

/-- Worlds that a program at the address cannot tell apart, before and after it writes. -/
structure Indistinct (address : Address) (R : World → World → Prop) : Prop where
  storage : ∀ {v w}, R v w → ∀ key, w.storage address key = v.storage address key
  store : ∀ {v w}, R v w → ∀ key value refund,
    R ((v.setStorage address key value).addRefund refund)
      ((w.setStorage address key value).addRefund refund)
  log : ∀ {v w}, R v w → ∀ l, R (v.addLog l) (w.addLog l)

/-- The second frame ended as the first one did, with extra gas left, in a related world. -/
structure Ahead (R : World → World → Prop) (extra : Nat) (f g : Frame World) : Prop where
  outcome : g.outcome = f.outcome
  gas : g.gas.toNat = f.gas.toNat + extra
  store : R f.store g.store

namespace Ahead

variable {R : World → World → Prop} {extra : Nat} {f g : Frame World} (h : Ahead R extra f g)

include h

theorem output_eq : g.output = f.output := by rw [Frame.output, Frame.output, h.outcome]

theorem failed_eq : g.failed = f.failed := by rw [Frame.failed, Frame.failed, h.outcome]

/-! The second message has the extra gas in its gas limit. -/

variable {limit limit' : U64} (hlimit : limit'.toNat = limit.toNat + extra) (hgas : f.gas ≤ limit)

include hlimit hgas

theorem gas_le : g.gas ≤ limit' := by
  have hle : f.gas.toNat ≤ limit.toNat := hgas
  have hextra := h.gas
  exact Word.le_iff.2 (by omega)

variable (hrefund : g.store.refund = f.store.refund)

include hrefund

/-- The refund is the same, and the extra gas comes back with it. -/
theorem toNat_gasBack : (g.gasBack limit').toNat = (f.gasBack limit).toNat + extra := by
  have hback := f.toNat_gasBack hgas
  have hback' := g.toNat_gasBack (h.gas_le hlimit hgas)
  have hextra := h.gas
  have hspent : limit'.toNat - g.gas.toNat = limit.toNat - f.gas.toNat := by omega
  rw [hrefund, hspent] at hback'
  omega

theorem result_eq : g.result limit' = f.result limit := by
  have hback := h.toNat_gasBack hlimit hgas hrefund
  have hused : limit'.satSub (g.gasBack limit') = limit.satSub (f.gasBack limit) := by
    apply Word.toNat_inj.1
    rw [Word.toNat_satSub, Word.toNat_satSub]
    omega
  rw [Frame.result, Frame.result, h.output_eq, h.failed_eq, hused]

end Ahead

namespace InPlace

variable {address : Address} {byzantium : Bool} {R : World → World → Prop} {extra : Nat}
  {v w : World} {gas gas' : U64} {f : Frame World}

/-- An instruction costs the same in worlds that cannot be told apart. -/
theorem price_eq (hR : Indistinct address R) (h : R v w) (i : Instruction) :
    price address w i = price address v i := by
  cases i with
  | store key value => simp only [price, hR.storage h]
  | stop => rfl
  | log topics data => rfl
  | ret data => rfl
  | revert => rfl

theorem effect_related (hR : Indistinct address R) (h : R v w) (i : Instruction) :
    R (effect address v i) (effect address w i) := by
  cases i with
  | store key value =>
    simp only [effect, hR.storage h]
    exact hR.store h _ _ _
  | log topics data => exact hR.log h _
  | stop => exact h
  | ret data => exact h
  | revert => exact h

/-- Where a run halts, a related one halts too, if it has no more gas. -/
theorem ahead_of_halt (h : R v w) (hgas : gas'.toNat = gas.toNat + extra)
    (hfollow : extra = 0 ∨ (Frame.failure v gas .exceptional).failed = false) :
    gas' = gas ∧
      Ahead R extra (.failure v gas .exceptional) (.failure w gas' .exceptional) := by
  have hzero : extra = 0 := hfollow.resolve_right fun hok => nomatch hok
  have hsame : gas' = gas := Word.toNat_inj.1 (by omega)
  exact ⟨hsame, rfl, hgas, h⟩

/-- One instruction: if what follows it goes in lockstep, so does it. -/
theorem perform_lockstep (hR : Indistinct address R) {i : Instruction}
    {next next' : U64 → World → Checked (Frame World)} (h : R v w)
    (hgas : gas'.toNat = gas.toNat + extra) (hfollow : extra = 0 ∨ f.failed = false)
    (hrun : perform address byzantium i gas v next = .ok f)
    (hnext : ∀ {left left' u u'}, R u u' → left'.toNat = left.toNat + extra →
      next left u = .ok f → ∃ g, next' left' u' = .ok g ∧ Ahead R extra f g) :
    ∃ g, perform address byzantium i gas' w next' = .ok g ∧ Ahead R extra f g := by
  by_cases hi : i ≠ .revert ∨ byzantium = true
  · -- Both worlds name the same price, so both can pay or the first one cannot.
    rw [perform_eq hi] at hrun ⊢
    obtain ⟨cost, hcost, hpaid⟩ := exists_of_bind hrun
    rw [price_eq hR h, hcost]
    simp only [bind, Except.bind]
    cases hleft : gas.sub? cost with
    | none =>
      rw [hleft] at hpaid
      cases hpaid
      obtain ⟨rfl, hahead⟩ := ahead_of_halt h hgas hfollow
      rw [hleft]
      exact ⟨_, rfl, hahead⟩
    | some left =>
      rw [hleft] at hpaid
      obtain ⟨left', hleft', hextra⟩ := Word.exists_sub?_of_add hgas hleft
      have heffect := effect_related hR h i
      rw [hleft']
      simp only [follow] at hpaid ⊢
      cases hending : ending? i with
      | none =>
        rw [hending] at hpaid
        exact hnext heffect hextra hpaid
      | some outcome =>
        rw [hending] at hpaid
        cases hpaid
        exact ⟨_, rfl, rfl, hextra, heffect⟩
  · -- A revert that the rules do not know halts in either world.
    rw [not_or, Decidable.not_not, Bool.not_eq_true] at hi
    rw [hi.1, hi.2, perform_revert] at hrun
    rw [hi.1, hi.2, perform_revert]
    cases hrun
    exact ⟨_, rfl, (ahead_of_halt h hgas hfollow).2⟩

/-- A run in a world that cannot be told apart, with extra gas, ends as the first one did and has
the extra gas left. A run that failed is followed without extra gas. -/
theorem interpret_lockstep (hR : Indistinct address R) {code : Bytes} {v w : World}
    {gas gas' : U64} (h : R v w) (hgas : gas'.toNat = gas.toNat + extra)
    (hfollow : extra = 0 ∨ f.failed = false)
    (hrun : interpret address byzantium code gas v = .ok f) :
    ∃ g, interpret address byzantium code gas' w = .ok g ∧ Ahead R extra f g := by
  by_cases hempty : code = []
  · rw [hempty, interpret_nil] at hrun
    cases hrun
    rw [hempty, interpret_nil]
    exact ⟨_, rfl, rfl, hgas, h⟩
  · cases hread : Instruction.read 0 code with
    | error e =>
      rw [interpret_of_read_error hempty hread] at hrun
      cases hrun
      rw [interpret_of_read_error hempty hread]
      exact ⟨_, rfl, (ahead_of_halt h hgas hfollow).2⟩
    | ok pair =>
      obtain ⟨i, rest⟩ := pair
      rw [interpret_of_read hread] at hrun ⊢
      exact perform_lockstep hR h hgas hfollow hrun fun hrelated hleft hlater =>
        interpret_lockstep hR hrelated hleft hfollow hlater
termination_by code.length
decreasing_by
  have := Instruction.length_of_read ‹_›
  have := Instruction.size_pos ‹_›
  omega

/-! ## Calls -/

/-- An account that is called in a world that cannot be told apart does the same, be it a program or
a precompiled contract. -/
theorem enter_lockstep {ctx : BlockContext} {m : Message} {precompile : Option Precompile}
    (hR : Indistinct address R) (h : R v w) (hcode : w.code address = v.code address)
    (hgas : gas'.toNat = gas.toNat + extra) (hfollow : extra = 0 ∨ f.failed = false)
    (hrun : enter ctx m address gas precompile v = .ok f) :
    ∃ g, enter ctx m address gas' precompile w = .ok g ∧ Ahead R extra f g := by
  cases precompile with
  | none =>
    unfold enter at hrun ⊢
    rw [hcode]
    exact interpret_lockstep hR h hgas hfollow hrun
  | some p =>
    obtain ⟨cost, hcost, hpaid⟩ := exists_of_bind hrun
    simp only [enter, hcost, bind, Except.bind]
    cases hleft : gas.sub? cost with
    | none =>
      rw [hleft] at hpaid
      cases hpaid
      obtain ⟨rfl, hahead⟩ := ahead_of_halt h hgas hfollow
      rw [hleft]
      exact ⟨_, rfl, hahead⟩
    | some left =>
      rw [hleft] at hpaid
      cases hpaid
      obtain ⟨left', hleft', hextra⟩ := Word.exists_sub?_of_add hgas hleft
      rw [hleft']
      exact ⟨_, rfl, rfl, hextra, h⟩

/-- Undoing a frame does not make it a success. -/
theorem failed_settleFrame (point : Checkpoint) (f : Frame World) :
    (settleFrame point f).failed = f.failed := by
  obtain ⟨store, left, outcome⟩ := f
  cases outcome with
  | ok output => rfl
  | error halt => cases halt <;> rfl

/-- Two frames that ended in lockstep are settled in lockstep, if the worlds that failed frames go
back to are related. -/
theorem ahead_settleFrame {g : Frame World} {point point' : Checkpoint} (h : Ahead R extra f g)
    (hundo : f.failed = true →
      extra = 0 ∧ R (f.store.restore point) (g.store.restore point')) :
    Ahead R extra (settleFrame point f) (settleFrame point' g) := by
  have houtcome := h.outcome
  obtain ⟨store, left, outcome⟩ := f
  obtain ⟨store', left', outcome'⟩ := g
  simp only at houtcome
  rw [houtcome] at h ⊢
  cases outcome with
  | ok output => exact h
  | error halt =>
    obtain ⟨hzero, hrestored⟩ := hundo rfl
    cases halt with
    | revert => exact ⟨rfl, h.gas, hrestored⟩
    | exceptional =>
      rw [hzero]
      exact ⟨rfl, rfl, hrestored⟩

/-- A run that is settled after it went in lockstep with another one. -/
theorem settle_lockstep {run run' : Checked (Frame World)} {point point' : Checkpoint}
    (hrun : run.map (settleFrame point) = .ok f)
    (hlockstep : ∀ e, run = .ok e → e.failed = f.failed →
      ∃ g, run' = .ok g ∧ Ahead R extra e g)
    (hundo : f.failed = true → extra = 0 ∧ ∀ e g, run = .ok e → run' = .ok g →
      R (e.store.restore point) (g.store.restore point')) :
    ∃ g, run'.map (settleFrame point') = .ok g ∧ Ahead R extra f g := by
  cases hinner : run with
  | error e =>
    rw [hinner] at hrun
    cases hrun
  | ok e =>
    rw [hinner] at hrun
    cases hrun
    rw [failed_settleFrame] at hlockstep hundo
    obtain ⟨g, hg, hahead⟩ := hlockstep e hinner rfl
    refine ⟨settleFrame point' g, by rw [hg]; rfl, ahead_settleFrame hahead ?_⟩
    intro hfailed
    obtain ⟨hzero, hrestored⟩ := hundo hfailed
    exact ⟨hzero, hrestored e g hinner hg⟩

end InPlace

end TwinLedger
