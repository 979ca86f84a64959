import TwinLedger.Proofs.Block.Run
import TwinLedger.Proofs.World.WellFormed

/-!
# No storage is lost

Accounts with storage have code (`World.WellFormed`), and a block keeps it so:

> `process_wellFormed`: after a block both layers of the world are well-formed, if they were before
> it, and once empty accounts are deleted, there are none in the finalised layer.

Only a program writes slots, and a program is code. A creation writes code, but to a fresh account.
What follows for the slots themselves is said about each transaction: it leaves every storage
alone but that of the account that it calls, and that one too if the account has no code
(`Included.storage`).
-/

namespace TwinLedger

open World

/-! ## One message -/

theorem ProgramWrites.wellFormed {address : Address} {w v : World}
    (h : ProgramWrites address w v) (hw : w.WellFormed) : v.WellFormed := by
  induction h with
  | done w => exact hw
  | @slot w v key value refund hcode later ih =>
    have hwritten : (w.setStorage address key value).WellFormed :=
      hw.setAccount ((hw.accountD address).setSlot hcode key value)
    exact ih ⟨hwritten.finalised, hwritten.pending⟩
  | log l _ ih => exact ih ⟨hw.finalised, hw.pending⟩

namespace InPlace

theorem wellFormed_callWorld {w : World} (hw : w.WellFormed) (m : Message) (target : Address) :
    (callWorld m target w).WellFormed := by
  unfold callWorld
  split
  · exact hw.pay _ _ _
  · exact (hw.createAccount target).pay _ _ _

theorem wellFormed_creationWorld {w : World} (hw : w.WellFormed) (ctx : BlockContext) (m : Message)
    (address : Address) : (creationWorld ctx m address w).WellFormed := by
  have hcreated := hw.createAccount address
  unfold creationWorld
  split
  · have hstarted : ((w.createAccount address).setNonce address 1).WellFormed :=
      hcreated.setAccount_of_same rfl rfl
    exact hstarted.pay _ _ _
  · exact hcreated.pay _ _ _

end InPlace

namespace Enacted

variable {ctx : BlockContext} {m : Message} {nonce : U64} {w v : World}

theorem extends_of (h : Enacted ctx m nonce w v) : w.Extends v := by
  cases h with
  | nothing => exact .refl w
  | called hrecipient hprogram => exact (InPlace.extends_callWorld m _ w).trans hprogram.extends_of
  | created hrecipient hnonce hcode hdeposit =>
    have hcreation := InPlace.extends_creationWorld ctx m (Address.ofCreation m.sender nonce) w
    rcases hdeposit with rfl | rfl
    · exact hcreation
    · exact hcreation.setAccount _ _

theorem wellFormed (h : Enacted ctx m nonce w v) (hw : w.WellFormed) : v.WellFormed := by
  cases h with
  | nothing => exact hw
  | called hrecipient hprogram => exact hprogram.wellFormed (InPlace.wellFormed_callWorld hw m _)
  | created hrecipient hnonce hcode hdeposit =>
    have hcreation := InPlace.wellFormed_creationWorld hw ctx m (Address.ofCreation m.sender nonce)
    rcases hdeposit with rfl | rfl
    · exact hcreation
    · -- Even empty code may be deposited, since there are no slots yet.
      exact hcreation.setAccount
        (Account.wellFormed_of_no_storage
          (InPlace.creationWorld_contract Account.storage (fun _ _ => rfl) ctx m _ w))

/-- Only the account called has its slots written, and only if it has code. -/
theorem storage (h : Enacted ctx m nonce w v) (hw : w.WellFormed) {a : Address}
    (ha : m.recipient ≠ some a ∨ w.code a = []) :
    (v.accountD a).storage = (w.accountD a).storage := by
  cases h with
  | nothing => rfl
  | @called target v hrecipient hprogram =>
    have hstart : ((InPlace.callWorld m target w).accountD a).storage = (w.accountD a).storage :=
      InPlace.callWorld_frame Account.storage (fun _ _ => rfl) m target w a
    by_cases htarget : a = target
    · rw [htarget] at ha hstart ⊢
      have hcode : (InPlace.callWorld m target w).code target = w.code target :=
        InPlace.callWorld_frame Account.code (fun _ _ => rfl) m target w target
      have hnone : w.code target = [] := ha.resolve_left fun hne => hne hrecipient
      rw [hprogram.accountD_of_no_code (hcode.trans hnone), hstart]
    · rw [hprogram.accountD_of_ne htarget, hstart]
  | created hrecipient hnonce hcode hdeposit =>
    have hcreation : ((InPlace.creationWorld ctx m (Address.ofCreation m.sender nonce) w).accountD
        a).storage = (w.accountD a).storage := by
      by_cases hcontract : a = Address.ofCreation m.sender nonce
      · rw [hcontract, (hw.accountD _).storage_of_no_code hcode]
        exact InPlace.creationWorld_contract Account.storage (fun _ _ => rfl) ctx m _ w
      · exact InPlace.creationWorld_frame Account.storage (fun _ _ => rfl) ctx m w hcontract
    rcases hdeposit with rfl | rfl
    · exact hcreation
    · exact (setAccount_frame Account.storage (by rfl) a).trans hcreation

end Enacted

theorem Admission.wellFormed_world {a : Admission} {m : Message} {w : World} (hw : w.WellFormed) :
    (a.world m w).WellFormed := by
  have hpaid : (w.subBalance m.sender a.gasCost).WellFormed := hw.setAccount_of_same rfl rfl
  exact hpaid.setAccount_of_same rfl rfl

namespace Included

variable {ctx : BlockContext} {m : Message} {w v : World} {pool : GasPool} {a : Admission}
  {left : U64} {r : ExecutionResult} {x : Execution}

/-- A message writes to the pending layer. -/
theorem finalised (h : Included ctx m w pool a v left r x) :
    x.world.finalised = w.finalised := by
  rw [h.world]
  exact h.enacted.extends_of.finalised

theorem wellFormed (h : Included ctx m w pool a v left r x) (hw : w.WellFormed) :
    x.world.WellFormed := by
  have henacted := h.enacted.wellFormed (Admission.wellFormed_world hw)
  have hrepaid : (v.addBalance m.sender (left.widen.satMul m.gasPrice)).WellFormed :=
    henacted.setAccount_of_same rfl rfl
  rw [h.world]
  exact hrepaid.setAccount_of_same rfl rfl

/-- Only the account called has its slots written, and only if it has code. -/
theorem storage (h : Included ctx m w pool a v left r x) (hw : w.WellFormed) {b : Address}
    (hb : m.recipient ≠ some b ∨ w.code b = []) :
    (x.world.accountD b).storage = (w.accountD b).storage := by
  have hcode : (a.world m w).code b = w.code b :=
    Admission.world_frame Account.code (fun _ _ _ => rfl) b
  have henacted := h.enacted.storage (Admission.wellFormed_world hw) (a := b)
    (by rw [hcode]; exact hb)
  rw [h.world_frame Account.storage fun _ _ => rfl, henacted]
  exact Admission.world_frame Account.storage (fun _ _ _ => rfl) b

end Included

/-! ## Blocks -/

namespace Inclusion

variable {chain : Chain} {header : Header} {index : Nat} {tx : Transaction} {before after : Live}
  {m : Message} {x : Execution} {r : ExecutionResult} {receipt : Receipt}

theorem wellFormed (h : Inclusion chain header index tx before m x r receipt after)
    (hbefore : before.world.WellFormed) : after.world.WellFormed := by
  obtain ⟨a, v, left, hincluded⟩ := h.included
  rw [h.world]
  exact (hincluded.wellFormed ⟨hbefore.finalised, hbefore.pending⟩).finalise _

theorem noEmptyAccount (h : Inclusion chain header index tx before m x r receipt after)
    (hfork : chain.config.isEip158 header.number) (hbefore : before.world.NoEmptyAccount) :
    after.world.NoEmptyAccount := by
  obtain ⟨a, v, left, hincluded⟩ := h.included
  have hx : x.world.NoEmptyAccount := by
    unfold NoEmptyAccount
    rw [hincluded.finalised]
    exact hbefore
  rw [h.world, hfork]
  exact hx.finalise

end Inclusion

section

variable {chain : Chain} {config : ExecutionConfig} {block : Block} {w : World} {disk : Disk}

theorem wellFormed_openBlock (hw : w.WellFormed) (chain : Chain) (header : Header) :
    (openBlock chain header w).WellFormed := by
  unfold openBlock
  split
  · exact hw.drain _
  · exact hw

/-- The drain writes to the pending layer. -/
theorem finalised_openBlock (chain : Chain) (header : Header) (w : World) :
    (openBlock chain header w).finalised = w.finalised := by
  unfold openBlock
  split
  · exact (extends_drain w _).finalised
  · rfl

/-- What a message of the block does to storage, whichever executor applies it. -/
def KeepsStorage (chain : Chain) (header : Header) (m : Message) (before : World) (x : Execution) :
    Prop :=
  (∀ a, ((x.world.finalise (chain.config.isEip158 header.number)).accountD a).storage =
    (x.world.accountD a).storage) ∧
  ∀ a, m.recipient ≠ some a ∨ before.code a = [] →
    (x.world.accountD a).storage = (before.accountD a).storage

theorem keepsStorage_of_apply {seat : Seat} {header : Header} {m : Message} {before : World}
    {pool : GasPool} {x : Execution} (hbefore : before.WellFormed)
    (h : Executors.stock.at seat (chain.context header m) m before pool = .ok x) :
    KeepsStorage chain header m before x := by
  rw [Executors.stock_at] at h
  rcases InPlace.apply_cases h with ⟨e, rfl⟩ | ⟨a, v, left, r, hincluded⟩
  · exact ⟨hbefore.storage_finalise _, fun a _ => rfl⟩
  · exact ⟨(hincluded.wellFormed hbefore).storage_finalise _, fun a => hincluded.storage hbefore⟩

/-- A block keeps the world well-formed, however it ends, and if empty accounts are deleted, it
keeps them out of the finalised layer. On the way no deletion takes storage away, and none of the
messages but a call of an account with code touches a slot; nor does the drain. -/
theorem process_wellFormed {run : BlockRun} (hw : w.WellFormed)
    (h : process chain .idle .stock config block w disk = .ok run) :
    run.world.WellFormed ∧
    (chain.config.isEip158 block.header.number → w.NoEmptyAccount → run.world.NoEmptyAccount) ∧
    (∀ a, ((openBlock chain block.header w).accountD a).storage = (w.accountD a).storage) ∧
    ∀ i before early tx m seat x, runUpTo chain .stock config block w disk i = .ok before →
      before.outcome = .ok early → block.transactions[i]? = some tx →
      (Signer.forBlock chain.config block.header.number).asMessage tx = .ok m →
      Executors.stock.at seat (chain.context block.header m) m
        (before.live.stamped block.header i tx).world before.live.pool = .ok x →
      KeepsStorage chain block.header m (before.live.stamped block.header i tx).world x := by
  have hstart : (Live.atStart chain block w).world.WellFormed :=
    wellFormed_openBlock hw chain block.header
  have hpassage : ∀ {index txs receipts live},
      Passage chain block.header index txs (.atStart chain block w) receipts live →
      live.world.WellFormed := fun hp => hp.invariant (fun hi => hi.wellFormed) hstart
  obtain ⟨_, _, _, live, stamp, hp, hworld⟩ := passage_of_process runUpTo_zero rfl h
  refine ⟨?_, ?_, openBlock_frame Account.storage (fun _ _ => rfl) chain block.header w, ?_⟩
  · rw [hworld]
    exact ⟨(hpassage hp).finalised, (hpassage hp).pending⟩
  · intro hfork hempty
    rw [hworld]
    refine hp.invariant (fun hi => hi.noEmptyAccount hfork) ?_
    unfold NoEmptyAccount
    rw [Live.atStart, finalised_openBlock]
    exact hempty
  · intro i before early tx m seat x hbefore hearly htx hmessage hx
    have hlive := hpassage (passage_of_runUpTo hbefore hearly)
    exact keepsStorage_of_apply ⟨hlive.finalised, hlive.pending⟩ hx

/-- A block with a drain, a call that writes slots, a creation, and empty accounts deleted. -/
theorem process_wellFormed_drain :
    ∃ run, process drainChain .idle .stock uncheckedConfig drainBlock drainWorld {} = .ok run ∧
      run.world.WellFormed ∧ run.world.NoEmptyAccount := by
  obtain ⟨run, output, hrun, _⟩ := exists_drainOutput
  obtain ⟨hwell, hnone, _⟩ := process_wellFormed (by decide +kernel) hrun
  exact ⟨run, hrun, hwell, hnone rfl (by decide +kernel)⟩

end

end TwinLedger
