import TwinLedger.Block.Processor
import TwinLedger.Proofs.Execution.Admission
import TwinLedger.Proofs.Execution.Stores

/-!
# The two executors agree

One executor writes to the world and goes back to a checkpoint when a call fails; the other writes
to a write set and commits it when a call succeeds. They leave the same result, the same world and
the same pool, for every message.

The proof follows a frame from the inside out. Running decoded instructions against a write set and
against the world it stands for are the same run:

> `execute_commit`: committing what `Buffered.execute` leaves is what `InPlace.execute` leaves on
> the committed world.

A failed frame loses its writes on both sides (`settleFrame_mapStore`): the checkpoint restores the
world beneath a commit, and a write set that is dropped never reached it. That is also why a
program that does not decode may have run half-way on one side only. What is around the program,
the transfer of the value and the settlement of the gas, is then compared piece by piece.
-/

namespace TwinLedger

/-! ## Instructions -/

/-- Running instructions against a write set, and running them on the world that it stands for. -/
theorem execute_commit (base : World) (address : Address) (byzantium : Bool)
    (program : List Instruction) (gas : U64) (ws : WriteSet) :
    InPlace.execute address byzantium program gas (ws.commit base) =
      (Buffered.execute base address byzantium program gas ws).map
        (Frame.mapStore (·.commit base)) := by
  rw [← Store.run_world, ← Store.run_buffered]
  exact (Store.views_commit base).run program gas ws

/-! ## Frames -/

/-- Undoing a failed frame and dropping its write set come to the same. -/
theorem settleFrame_mapStore (base : World) (f : Frame WriteSet) :
    InPlace.settleFrame base.checkpoint (f.mapStore (·.commit base)) =
      Buffered.commitFrame base f := by
  have hrestore : (f.store.commit base).restore base.checkpoint = base :=
    World.restore_checkpoint (WriteSet.extends_commit f.store base)
  obtain ⟨store, gas, outcome⟩ := f
  cases outcome with
  | ok output => rfl
  | error halt =>
    cases halt with
    | revert => exact congrArg (Frame.mk · gas (.error .revert)) hrestore
    | exceptional => exact congrArg (Frame.mk · 0 (.error .exceptional)) hrestore

/-- A frame that halted is undone whatever it wrote. -/
theorem settleFrame_of_exceptional {base : World} {f : Frame World}
    (hout : f.outcome = .error .exceptional) (h : base.Extends f.store) :
    InPlace.settleFrame base.checkpoint f = .failure base 0 .exceptional := by
  unfold InPlace.settleFrame
  rw [hout]
  exact congrArg (Frame.mk · 0 (.error .exceptional)) (World.restore_checkpoint h)

/-- The program of an account, run over a write set that is then settled. -/
theorem settle_interpret (base : World) (address : Address) (byzantium : Bool) (code : Bytes)
    (gas : U64) (ws : WriteSet) :
    (InPlace.interpret address byzantium code gas (ws.commit base)).map
        (InPlace.settleFrame base.checkpoint) =
      (Buffered.run base address byzantium code gas ws).map (Buffered.commitFrame base) := by
  unfold Buffered.run
  cases hdecode : decode code with
  | error e =>
    -- One side never starts. The other ran up to the fault, and all of it is undone.
    obtain ⟨f, hf, hout, hext⟩ :
        ∃ f, InPlace.interpret address byzantium code gas (ws.commit base) = .ok f ∧
          f.outcome = .error .exceptional ∧ (ws.commit base).Extends f.store :=
      InPlace.interpret_of_decode_error hdecode gas (ws.commit base)
    rw [hf]
    exact congrArg Except.ok
      (settleFrame_of_exceptional hout ((WriteSet.extends_commit ws base).trans hext))
  | ok program =>
    rw [InPlace.interpret_of_decode hdecode, execute_commit]
    simp only
    cases Buffered.execute base address byzantium program gas ws with
    | error e => rfl
    | ok f => exact congrArg Except.ok (settleFrame_mapStore base f)

/-! ## Calls -/

namespace InPlace

/-- A call once the account is there and the value moved. -/
def enter (ctx : BlockContext) (m : Message) (target : Address) (gas : U64)
    (precompile : Option Precompile) (paid : World) : Checked (Frame World) :=
  match precompile with
  | some p => do
    let cost ← p.gasCost m.data
    match gas.sub? cost with
    | none => .ok (.failure paid gas .exceptional)
    | some left => .ok (.success paid left (p.run m.data))
  | none => interpret target ctx.rules.byzantium (paid.code target) gas paid

/-- The world in which a call is entered. -/
def callWorld (m : Message) (target : Address) (w : World) : World :=
  ((if w.exists? target then w else w.createAccount target).subBalance m.sender
    m.value).addBalance target m.value

theorem call_eq (ctx : BlockContext) (m : Message) (target : Address) (w : World) (gas : U64) :
    call ctx m target w gas =
      if !w.exists? target && (Precompile.at? target).isNone && ctx.rules.eip158 && m.value == 0
      then .ok (.success w gas [])
      else
        (enter ctx m target gas (Precompile.at? target) (callWorld m target w)).map
          (settleFrame w.checkpoint) := by
  unfold call callWorld
  by_cases hidle :
      (!w.exists? target && (Precompile.at? target).isNone && ctx.rules.eip158 && m.value == 0) =
        true
  · simp only [if_pos hidle]
  · simp only [if_neg hidle]
    cases Precompile.at? target with
    | none => rfl
    | some p =>
      unfold enter
      simp only [bind, Except.bind]
      cases p.gasCost m.data with
      | error e => rfl
      | ok cost =>
        simp only
        cases gas.sub? cost with
        | none => rfl
        | some left => rfl

end InPlace

/-- Entering a call over a write set. -/
theorem settle_enter (ctx : BlockContext) (m : Message) (target : Address) (base : World)
    (gas : U64) (precompile : Option Precompile) (ws : WriteSet) :
    (InPlace.enter ctx m target gas precompile (ws.commit base)).map
        (InPlace.settleFrame base.checkpoint) =
      (Buffered.call.enter ctx m target base gas precompile ws).map
        (Buffered.commitFrame base) := by
  cases precompile with
  | none =>
    unfold InPlace.enter Buffered.call.enter
    simp only
    rw [WriteSet.code_commit, settle_interpret]
  | some p =>
    unfold InPlace.enter Buffered.call.enter
    simp only
    cases p.gasCost m.data with
    | error e => rfl
    | ok cost =>
      simp only [bind, Except.bind]
      cases gas.sub? cost with
      | none => exact congrArg Except.ok (settleFrame_mapStore base (.failure ws gas .exceptional))
      | some left => rfl

/-- A call, in place and buffered. -/
theorem call_agree (ctx : BlockContext) (m : Message) (target : Address) (w : World) (gas : U64) :
    InPlace.call ctx m target w gas =
      (Buffered.call ctx m target w gas).map (Buffered.commitFrame w) := by
  have hstart : ({} : WriteSet).exists? w target = w.exists? target := by
    rw [← WriteSet.exists?_commit, WriteSet.commit_empty]
  -- Whatever the call starts from, the transfer is seen through the commit.
  have henter : ∀ ws : WriteSet,
      (InPlace.enter ctx m target gas (Precompile.at? target)
          (((ws.commit w).subBalance m.sender m.value).addBalance target m.value)).map
          (InPlace.settleFrame w.checkpoint) =
        (Buffered.call.enter ctx m target w gas (Precompile.at? target)
          (ws.transfer w m.sender target m.value)).map (Buffered.commitFrame w) := by
    intro ws
    rw [← WriteSet.commit_transfer]
    exact settle_enter ctx m target w gas (Precompile.at? target)
      (ws.transfer w m.sender target m.value)
  rw [InPlace.call_eq]
  unfold Buffered.call InPlace.callWorld
  simp only [hstart]
  by_cases hexists : w.exists? target = true
  · have h := henter {}
    rw [WriteSet.commit_empty] at h
    simp only [hexists, Bool.not_true, Bool.false_and, Bool.false_eq_true, if_false, if_true]
    exact h
  · have h := henter (({} : WriteSet).createAccount target)
    rw [WriteSet.commit_createAccount, WriteSet.commit_empty] at h
    rw [Bool.not_eq_true] at hexists
    simp only [hexists, Bool.not_false, Bool.true_and, Bool.false_eq_true, if_false]
    by_cases hidle :
        ((Precompile.at? target).isNone && ctx.rules.eip158 && m.value == 0) = true
    · rw [if_pos hidle, if_pos hidle]
      show _ = Except.ok (Frame.success (({} : WriteSet).commit w) gas [])
      rw [WriteSet.commit_empty]
    · rw [if_neg hidle, if_neg hidle]
      exact h

/-! ## Creations -/

/-- A creation, in place and buffered. -/
theorem create_agree (ctx : BlockContext) (m : Message) (nonce : U64) (w : World) (gas : U64) :
    InPlace.create ctx m nonce w gas =
      (Buffered.create ctx m nonce w gas).map (Buffered.commitFrame w) := by
  have hnonce : ∀ a, ({} : WriteSet).nonce w a = w.nonce a := by
    intro a
    rw [← WriteSet.nonce_commit, WriteSet.commit_empty]
  have hcode : ∀ a, ({} : WriteSet).code w a = w.code a := by
    intro a
    rw [← WriteSet.code_commit, WriteSet.commit_empty]
  unfold InPlace.create Buffered.create
  simp only [hnonce, hcode]
  by_cases htaken : (w.nonce (Address.ofCreation m.sender nonce) != 0 ||
      !(w.code (Address.ofCreation m.sender nonce)).isEmpty) = true
  · rw [if_pos htaken, if_pos htaken]
    rfl
  rw [if_neg htaken, if_neg htaken]
  generalize Address.ofCreation m.sender nonce = address
  -- The account is there and paid for in the world that the write set stands for.
  have hstarted : (if ctx.rules.eip158 = true then (w.createAccount address).setNonce address 1
        else w.createAccount address) =
      (if ctx.rules.eip158 = true then
          (({} : WriteSet).createAccount address).setNonce address 1
        else ({} : WriteSet).createAccount address).commit w := by
    split
    · rw [WriteSet.commit_setNonce, WriteSet.commit_createAccount, WriteSet.commit_empty]
    · rw [WriteSet.commit_createAccount, WriteSet.commit_empty]
  rw [hstarted, ← WriteSet.commit_transfer]
  generalize (if ctx.rules.eip158 = true then
      (({} : WriteSet).createAccount address).setNonce address 1
    else ({} : WriteSet).createAccount address).transfer w m.sender address m.value = paid
  have hfailed := settleFrame_mapStore w (.failure paid gas .exceptional)
  by_cases hlarge : (ctx.rules.eip158 && decide (Gas.maxCodeSize < m.data.length)) = true
  · rw [if_pos hlarge, if_pos hlarge]
    exact congrArg Except.ok hfailed
  rw [if_neg hlarge, if_neg hlarge]
  cases Gas.deposit m.data.length with
  | error e => rfl
  | ok deposit =>
    simp only [bind, Except.bind]
    by_cases hdeposit : deposit ≤ gas
    · have hsub : gas.sub? deposit = some (gas.satSub deposit) := if_pos hdeposit
      rw [hsub, if_pos hdeposit]
      simp only
      rw [← WriteSet.commit_setCode]
      rfl
    · have hsub : gas.sub? deposit = none := if_neg hdeposit
      rw [hsub, if_neg hdeposit]
      cases ctx.rules.homestead
      · rfl
      · exact congrArg Except.ok hfailed

/-! ## Messages -/

/-- The fees and the refund do not depend on the order in which they are multiplied or compared. -/
theorem settleGas_eq_charge : InPlace.settleGas = Buffered.charge := by
  funext ctx m pool f
  unfold InPlace.settleGas Buffered.charge
  simp only [Word.min_comm f.store.refund, Word.satMul_comm m.gasPrice]

/-- Calling or creating, in place and buffered. -/
theorem enact_agree (ctx : BlockContext) (m : Message) (nonce : U64) (w : World) (gas : U64) :
    InPlace.enact ctx m nonce w gas =
      (Buffered.enact ctx m nonce w gas).map (Buffered.commitFrame w) := by
  unfold InPlace.enact Buffered.enact
  cases m.recipient with
  | none => exact create_agree ctx m nonce w gas
  | some target => exact call_agree ctx m target w gas

/-- The two executors are one function of the message, the world and the pool. -/
theorem inPlace_eq_buffered : InPlace.apply = Buffered.apply := by
  funext ctx m w pool
  rw [InPlace.apply_eq, Buffered.apply_eq]
  cases admission ctx m w pool with
  | error e => rfl
  | ok a =>
    simp only
    rw [enact_agree, settleGas_eq_charge]
    cases Buffered.enact ctx m (w.nonce m.sender) (a.world m w) (a.gas m) with
    | error e => rfl
    | ok frame => rfl

theorem Executors.stock_eq : Executors.stock = ⟨InPlace.apply, InPlace.apply⟩ := by
  unfold Executors.stock
  rw [inPlace_eq_buffered]

/-- In either seat it is the executor that writes in place that answers. -/
theorem Executors.stock_at (seat : Seat) : Executors.stock.at seat = InPlace.apply := by
  rw [stock_eq]
  cases seat <;> rfl

/-- For every message, the executor that writes in place and the one that buffers end in the same
result, the same pool and the same world: both layers of accounts, logs, refund counter and stamp,
before anything is finalised. -/
theorem apply_agree (ctx : BlockContext) (m : Message) (w : World) (pool : GasPool) :
    InPlace.apply ctx m w pool = Buffered.apply ctx m w pool := by
  rw [inPlace_eq_buffered]

end TwinLedger
