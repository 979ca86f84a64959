import TwinLedger.Proofs.Execution.Ledger
import TwinLedger.Proofs.Execution.Lockstep

/-!
# What a call depends on

A call runs the program of its target, and that program reads the slots of its own account. The
refund counter counts when the gas is settled. Nothing else that is in the world makes a difference
to how the call goes: no other account, not the money of the target, not even whether the target
exists, for an account that is not there reads as one without code. Two worlds that agree on the
little that counts may differ in all the rest.

> `Alike`: the worlds read the same at an address, and have the same refund counter;
> `Parallel`: so they do after two runs, and the same events were logged in both.

A program keeps worlds parallel (`Parallel.indistinct`), what is around it writes to balances and
nonces only, which do not show (`Unseen`), and where a call ends early because there is nothing to
do, entering it would have made no difference either (`exists_enter_of_call`).
-/

namespace TwinLedger

open World

namespace Account

/-- A slot that was written answers with what was written, the others as before. -/
theorem slot_setSlot (account : Account) (key value q : Hash) :
    (account.setSlot key value).slot q =
      if q = key then (if value.isZero then 0 else value) else account.slot q := by
  have hread : (account.setSlot key value).slot q =
      ((write account.storage key value).get? q).getD 0 := rfl
  rw [hread]
  by_cases hq : q = key
  · rw [hq, get?_write_self, if_pos rfl]
    split <;> rfl
  · rw [get?_write_of_ne _ _ hq, if_neg hq]
    rfl

end Account

/-! ## Worlds that are alike at an address -/

/-- Worlds that a call of the address cannot tell apart. -/
structure Alike (address : Address) (v w : World) : Prop where
  refund : w.refund = v.refund
  code : w.code address = v.code address
  storage : ∀ key, w.storage address key = v.storage address key

/-- A change that shows neither at the address nor in the refund counter nor in the logs. -/
structure Unseen (address : Address) (w v : World) : Prop where
  alike : Alike address w v
  logs : v.logs = w.logs

namespace Unseen

variable {address : Address} {v w : World}

theorem refl (w : World) : Unseen address w w := ⟨⟨rfl, rfl, fun _ => rfl⟩, rfl⟩

/-- Balances and nonces do not show. -/
theorem of_frame (hrefund : v.refund = w.refund) (hlogs : v.logs = w.logs)
    (hframe : ∀ {α : Type} (field : Account → α),
      (∀ account balance nonce, field { account with balance, nonce } = field account) →
      field (v.accountD address) = field (w.accountD address)) :
    Unseen address w v where
  alike :=
    { refund := hrefund
      code := hframe Account.code fun _ _ _ => rfl
      storage := fun key => hframe (fun account => account.slot key) fun _ _ _ => rfl }
  logs := hlogs

/-- The purchase of the gas does not show. -/
theorem admission (a : Admission) (m : Message) (w : World) :
    Unseen address w (a.world m w) :=
  .of_frame rfl rfl fun field hfield => Admission.world_frame field hfield address

/-- Creating the target and moving the value does not show. -/
theorem callWorld (m : Message) (target : Address) (w : World) :
    Unseen address w (InPlace.callWorld m target w) := by
  have hrefund : (InPlace.callWorld m target w).refund = w.refund :=
    InPlace.callWorld_induction (P := fun u => u.refund = w.refund) (fun _ _ _ _ h => h) rfl
  refine .of_frame hrefund (InPlace.logs_callWorld m target w) ?_
  intro α field hfield
  exact InPlace.callWorld_frame field (fun account balance => hfield account balance account.nonce)
    m target w address

/-- The settlement of the gas does not show. -/
theorem settled {ctx : BlockContext} {m : Message} {pool : GasPool} {a : Admission}
    {f : Frame World} {x : Execution} (h : Settled ctx m w pool a f x) :
    Unseen address f.store x.world := by
  have hworld := h.included.world
  refine .of_frame ?_ ?_ ?_
  · rw [hworld]
    rfl
  · rw [hworld]
    rfl
  · intro α field hfield
    exact h.included.world_frame field
      (fun account balance => hfield account balance account.nonce) address

end Unseen

/-! ## Worlds that stay alike -/

/-- What the emitter gives of a log, without stamp and position. -/
def Log.event (l : Log) : Address × List Hash × Bytes := (l.address, l.topics, l.data)

/-- Two worlds that are alike at an address, and that have come from two others with the same events
logged. -/
structure Parallel (address : Address) (v₀ w₀ v w : World) : Prop where
  alike : Alike address v w
  logs : ∃ new new', v.logs = v₀.logs ++ new ∧ w.logs = w₀.logs ++ new' ∧
    new'.map Log.event = new.map Log.event

namespace Parallel

variable {address : Address} {v₀ w₀ v w : World}

/-- Worlds that are alike are parallel from the start. -/
theorem start (h : Alike address v w) : Parallel address v w v w :=
  ⟨h, [], [], by rw [List.append_nil], by rw [List.append_nil], rfl⟩

/-- What does not show may happen to both worlds. -/
theorem unseen (h : Parallel address v₀ w₀ v w) {v' w' : World} (hv : Unseen address v v')
    (hw : Unseen address w w') : Parallel address v₀ w₀ v' w' := by
  obtain ⟨⟨hrefund, hcode, hstorage⟩, hlogs⟩ := h
  refine ⟨⟨?_, ?_, ?_⟩, ?_⟩
  · rw [hw.alike.refund, hv.alike.refund, hrefund]
  · rw [hw.alike.code, hv.alike.code, hcode]
  · intro key
    rw [hw.alike.storage, hv.alike.storage, hstorage]
  · rw [hw.logs, hv.logs]
    exact hlogs

/-- A slot is written in both worlds. -/
theorem setStorage (h : Parallel address v₀ w₀ v w) (key value : Hash) (refund : U64) :
    Parallel address v₀ w₀ ((v.setStorage address key value).addRefund refund)
      ((w.setStorage address key value).addRefund refund) := by
  have hcode : ∀ u : World, (u.setStorage address key value).code address = u.code address :=
    fun u => setAccount_frame Account.code (by rfl) address
  have hslot : ∀ (u : World) (q : Hash), (u.setStorage address key value).storage address q =
      if q = key then (if value.isZero then 0 else value) else u.storage address q := by
    intro u q
    have hread : (u.setStorage address key value).storage address q =
        ((u.accountD address).setSlot key value).slot q :=
      congrArg (fun account => account.slot q) (accountD_modify_self u address _)
    rw [hread, Account.slot_setSlot]
    rfl
  refine ⟨⟨?_, ?_, ?_⟩, h.logs⟩
  · exact congrArg (fun counter => counter.satAdd refund) h.alike.refund
  · exact (hcode w).trans (h.alike.code.trans (hcode v).symm)
  · intro q
    have hv : ((v.setStorage address key value).addRefund refund).storage address q = _ := hslot v q
    have hw : ((w.setStorage address key value).addRefund refund).storage address q = _ := hslot w q
    rw [hv, hw, h.alike.storage]

/-- One event is logged in both worlds, each with its own stamp and position. -/
theorem addLog (h : Parallel address v₀ w₀ v w) (l : Log) :
    Parallel address v₀ w₀ (v.addLog l) (w.addLog l) := by
  obtain ⟨⟨hrefund, hcode, hstorage⟩, new, new', hnew, hnew', hevents⟩ := h
  refine ⟨⟨hrefund, hcode, hstorage⟩, new ++ [l.stamped v.stamp (.wrap v.logs.length)],
    new' ++ [l.stamped w.stamp (.wrap w.logs.length)], ?_, ?_, ?_⟩
  · rw [← List.append_assoc, ← hnew]
    rfl
  · rw [← List.append_assoc, ← hnew']
    rfl
  · rw [List.map_append, List.map_append, hevents]
    rfl

/-- No program at the address tells parallel worlds apart, and it keeps them parallel. -/
theorem indistinct (address : Address) (v₀ w₀ : World) :
    Indistinct address (Parallel address v₀ w₀) where
  storage := fun h => h.alike.storage
  store := fun h => h.setStorage
  log := fun h => h.addLog

end Parallel

/-! ## Calls -/

namespace InPlace

variable {ctx : BlockContext} {m : Message} {target : Address} {v₀ w₀ v w : World} {gas : U64}
  {f g : Frame World}

/-- Where there is nothing to do, a call might as well be entered: it ends in the same way and with
the same gas. -/
theorem exists_enter_of_call (h : call ctx m target w gas = .ok f) :
    ∃ e, (enter ctx m target gas (Precompile.at? target) (callWorld m target w)).map
        (settleFrame w.checkpoint) = .ok e ∧
      f.outcome = e.outcome ∧ f.gas = e.gas ∧ Unseen target e.store f.store := by
  rw [call_eq] at h
  split at h
  · next hidle =>
    cases h
    simp only [Bool.and_eq_true, Bool.not_eq_true', Option.isNone_iff_eq_none] at hidle
    obtain ⟨⟨⟨habsent, hprecompile⟩, -⟩, -⟩ := hidle
    have hunseen : Unseen target w (callWorld m target w) := .callWorld m target w
    -- The account is not there, so there is no code to run.
    have hcode : (callWorld m target w).code target = [] := by
      rw [hunseen.alike.code]
      exact congrArg Account.code (accountD_of_not_exists habsent)
    refine ⟨.success (callWorld m target w) gas [], ?_, rfl, rfl, ?_⟩
    · rw [hprecompile]
      simp only [enter, hcode, interpret_nil]
      rfl
    · exact ⟨⟨hunseen.alike.refund.symm, hunseen.alike.code.symm,
        fun key => (hunseen.alike.storage key).symm⟩, hunseen.logs.symm⟩
  · exact ⟨f, h, rfl, rfl, .refl f.store⟩

/-- What a call has written can be undone. -/
theorem restore_of_enter (h : enter ctx m target gas (Precompile.at? target)
    (callWorld m target w) = .ok f) : f.store.restore w.checkpoint = w :=
  restore_checkpoint ((extends_callWorld m target w).trans (enter_writes h).1.extends_of)

/-- Calls in worlds that are alike at the target go in lockstep. -/
theorem call_parallel (h : Parallel target v₀ w₀ v w) (hf : call ctx m target v gas = .ok f)
    (hg : call ctx m target w gas = .ok g) : Ahead (Parallel target v₀ w₀) 0 f g := by
  obtain ⟨e, he, houtcome, hgas, hunseen⟩ := exists_enter_of_call hf
  obtain ⟨e', he', houtcome', hgas', hunseen'⟩ := exists_enter_of_call hg
  have hpaid := h.unseen (.callWorld m target v) (.callWorld m target w)
  obtain ⟨i, hi, hahead⟩ : ∃ i, (enter ctx m target gas (Precompile.at? target)
      (callWorld m target w)).map (settleFrame w.checkpoint) = .ok i ∧
      Ahead (Parallel target v₀ w₀) 0 e i := by
    refine settle_lockstep he ?_ ?_
    · intro entered hentered _
      exact enter_lockstep (Parallel.indistinct target v₀ w₀) hpaid hpaid.alike.code rfl
        (Or.inl rfl) hentered
    · intro _
      refine ⟨rfl, ?_⟩
      intro first second hfirst hsecond
      rw [restore_of_enter hfirst, restore_of_enter hsecond]
      exact h
  cases Except.ok.inj (hi.symm.trans he')
  refine ⟨?_, ?_, hahead.store.unseen hunseen hunseen'⟩
  · rw [houtcome, houtcome', hahead.outcome]
  · rw [hgas, hgas', hahead.gas]

end InPlace

/-! ## Messages -/

/-- If two worlds have the same refund counter and read the same at the account that is called, code
and slots, then the call comes to the same: whatever else is in the worlds and in the pools, and
whichever executor is asked in each, if both include the message they give the same result, log the
same events, and leave worlds that read the same at that account and have the same refund
counter. -/
theorem call_depends_on_target {ctx : BlockContext} {m : Message} {target : Address} {v w : World}
    {p q : GasPool} {x y : Execution} {r s : ExecutionResult} (seat seat' : Seat)
    (hrecipient : m.recipient = some target) (halike : Alike target v w)
    (hx : Executors.stock.at seat ctx m v p = .ok x) (hr : x.result = .ok r)
    (hy : Executors.stock.at seat' ctx m w q = .ok y) (hs : y.result = .ok s) :
    s = r ∧ Parallel target v w x.world y.world := by
  obtain ⟨a, f, hf, rfl⟩ := Settled.of_apply hx hr
  obtain ⟨b, g, hg, rfl⟩ := Settled.of_apply hy hs
  -- The gas due before execution is a matter of the message alone.
  have hgas : b.gas m = a.gas m := by
    have hintrinsic : b.intrinsic = a.intrinsic :=
      Option.some.inj (hg.admitted.intrinsic.symm.trans hf.admitted.intrinsic)
    rw [Admission.gas, Admission.gas, hintrinsic]
  have hcall := hf.enact
  have hcall' := hg.enact
  unfold InPlace.enact at hcall hcall'
  rw [hrecipient] at hcall hcall'
  rw [hgas] at hcall'
  have hbought : Parallel target v w (a.world m v) (b.world m w) :=
    (Parallel.start halike).unseen (.admission a m v) (.admission b m w)
  have hahead := InPlace.call_parallel hbought hcall hcall'
  exact ⟨hahead.result_eq rfl hf.gas_le hahead.store.alike.refund,
    hahead.store.unseen (.settled hf) (.settled hg)⟩

/-- The contract that clears its slot in a world where it logs an event first. -/
def loudWorld : World :=
  sampleWorld.setCode 17 ((Instruction.log [7] [1]).encode ++ (Instruction.store 1 0).encode)

/-- The contract is called in another world, in which it has money, the sender has more of it, and
a log is there already. It logs its event in both. -/
theorem call_depends_on_target_loud :
    let other := (((loudWorld.setBalance 17 9).addBalance 16 5).addLog {}).touch 40
    ∃ x y r s, Executors.stock.at .reference (sampleContext 19) (sampleMessage 17 60000) loudWorld
        ⟨100000⟩ = .ok x ∧ x.result = .ok r ∧
      Executors.stock.at .alternate (sampleContext 19) (sampleMessage 17 60000) other ⟨70000⟩ =
        .ok y ∧ y.result = .ok s ∧
      r.failed = false ∧ x.world.logs.length = loudWorld.logs.length + 1 ∧
      y.world.logs.length = other.logs.length + 1 ∧
      s = r ∧ Parallel 17 loudWorld other x.world y.world := by
  intro other
  have hanswer : (Executors.stock.at .reference (sampleContext 19) (sampleMessage 17 60000)
      loudWorld ⟨100000⟩).toOption.any (fun x => (x.result.toOption.any fun r => !r.failed) &&
        x.world.logs.length == loudWorld.logs.length + 1) = true := by decide +kernel
  have hanswer' : (Executors.stock.at .alternate (sampleContext 19) (sampleMessage 17 60000)
      other ⟨70000⟩).toOption.any (fun y => (y.result.toOption.any fun s => !s.failed) &&
        y.world.logs.length == other.logs.length + 1) = true := by decide +kernel
  obtain ⟨x, hx, hrun⟩ := exists_of_any hanswer
  obtain ⟨hresult, hlogs⟩ := Bool.and_eq_true_iff.1 hrun
  obtain ⟨r, hr, hok⟩ := exists_of_any hresult
  obtain ⟨y, hy, hrun'⟩ := exists_of_any hanswer'
  obtain ⟨hresult', hlogs'⟩ := Bool.and_eq_true_iff.1 hrun'
  obtain ⟨s, hs, -⟩ := exists_of_any hresult'
  have halike : Alike 17 loudWorld other := ⟨rfl, rfl, fun key => rfl⟩
  exact ⟨x, y, r, s, hx, hr, hy, hs, by simpa using hok, eq_of_beq hlogs, eq_of_beq hlogs',
    call_depends_on_target .reference .alternate rfl halike hx hr hy hs⟩

end TwinLedger
