import TwinLedger.Proofs.Execution.Ledger

/-!
# Where a message leaves a trace

A message has business with three accounts: that of its sender, the one that it calls or creates,
and that of the author. All others stay as they are and are not even touched, and of the three only
the target can get other code or storage.

When the call or creation fails, it may have created the target, moved the value and run any part of
a program. None of that is left:

> `RolledBack`: the world is the one from before, with the sender charged and counted and the author
> paid.

Both are said of every message that is included (`Footprint`). How far a failure goes with the gas
is said last: a halt takes all of it, so that only a program that ends in a revert leaves some.
-/

namespace TwinLedger

open World

/-! ## Only three accounts -/

/-- Who takes part in a message. -/
def Message.Involves (ctx : BlockContext) (m : Message) (a : Address) : Prop :=
  a = m.sender ∨ a = m.target ∨ a = ctx.coinbase

theorem ProgramWrites.within {S : Address → Prop} {address : Address} {w v : World}
    (h : ProgramWrites address w v) (haddress : S address) : Within S w v := by
  induction h with
  | done w => exact .refl w
  | slot key value refund _ _ ih =>
    exact (((Within.refl _).setAccount haddress _).addRefund refund).trans ih
  | log l _ ih => exact ((Within.refl _).addLog l).trans ih

/-! ## Calls and creations -/

namespace Enacted

variable {ctx : BlockContext} {m : Message} {w v : World} (h : Enacted ctx m m.nonce w v)

include h

/-- A call or creation writes to the sender and to the target. -/
theorem within : Within (m.Involves ctx) w v := by
  have htarget : m.Involves ctx m.target := Or.inr (Or.inl rfl)
  have hwrite : ∀ (u : World) (a : Address) (account : Account), a = m.sender ∨ a = m.target →
      Within (m.Involves ctx) w u → Within (m.Involves ctx) w (u.setAccount a account) :=
    fun u a account ha hu => hu.setAccount (ha.imp_right Or.inl) account
  cases h with
  | nothing => exact .refl w
  | called hrecipient hprogram =>
    rw [Message.target_of_recipient hrecipient] at htarget hwrite
    exact (InPlace.callWorld_induction hwrite (.refl w)).trans (hprogram.within htarget)
  | created hrecipient hnonce hcode hdeposit =>
    rw [Message.target_of_creation hrecipient] at htarget hwrite
    have hstarted := InPlace.creationWorld_induction hwrite (.refl w) ctx
    rcases hdeposit with rfl | rfl
    · exact hstarted
    · exact hstarted.setAccount htarget _

/-- Beside balances, a call or creation changes nothing but the target. -/
theorem frame_of_ne {α : Type} (field : Account → α)
    (hfield : ∀ account balance, field { account with balance } = field account) {b : Address}
    (hb : b ≠ m.target) : field (v.accountD b) = field (w.accountD b) := by
  cases h with
  | nothing => rfl
  | called hrecipient hprogram =>
    rw [Message.target_of_recipient hrecipient] at hb
    rw [hprogram.accountD_of_ne hb]
    exact InPlace.callWorld_frame field hfield m _ w b
  | created hrecipient hnonce hcode hdeposit =>
    rw [Message.target_of_creation hrecipient] at hb
    have hstarted := InPlace.creationWorld_frame field hfield ctx m w hb
    rcases hdeposit with rfl | rfl
    · exact hstarted
    · rw [World.setCode, World.accountD_modify_of_ne _ _ hb]
      exact hstarted

end Enacted

/-! ## Messages -/

namespace Included

variable {ctx : BlockContext} {m : Message} {w v : World} {pool : GasPool} {a : Admission}
  {left : U64} {r : ExecutionResult} {x : Execution} (h : Included ctx m w pool a v left r x)

include h

theorem enacted_nonce : Enacted ctx m m.nonce (a.world m w) v := by
  have henacted := h.enacted
  rwa [h.admitted.nonce] at henacted

theorem within : Within (m.Involves ctx) w x.world := by
  have hsender : m.Involves ctx m.sender := Or.inl rfl
  have hauthor : m.Involves ctx ctx.coinbase := Or.inr (Or.inr rfl)
  have hbought : Within (m.Involves ctx) w (a.world m w) :=
    ((Within.refl w).setAccount hsender _).setAccount hsender _
  rw [h.world]
  exact ((hbought.trans h.enacted_nonce.within).setAccount hsender _).setAccount hauthor _

/-- Beside balance and nonce, a message changes nothing but the target. -/
theorem frame_of_ne {α : Type} (field : Account → α)
    (hfield : ∀ account balance nonce, field { account with balance, nonce } = field account)
    {b : Address} (hb : b ≠ m.target) : field (x.world.accountD b) = field (w.accountD b) := by
  have hbalance : ∀ account balance, field { account with balance } = field account :=
    fun account balance => hfield account balance account.nonce
  rw [h.world_frame field hbalance, h.enacted_nonce.frame_of_ne field hbalance hb]
  exact Admission.world_frame field hfield b

end Included

/-! ## Failures -/

/-- What is left of a message that failed. -/
structure RolledBack (ctx : BlockContext) (m : Message) (w : World) (r : ExecutionResult)
    (x : Execution) : Prop where
  /-- The sender is charged and counted, the author is paid, and that is all. -/
  world : ∃ (fees balance : U256) (nonce : U64),
    fees.toNat = r.gasUsed.toNat * m.gasPrice.toNat ∧
    balance.toNat + fees.toNat = (w.balance m.sender).toNat ∧
    nonce.toNat = (w.nonce m.sender).toNat + 1 ∧
    x.world = (w.setAccount m.sender { w.accountD m.sender with balance, nonce }).addBalance
      ctx.coinbase fees
  contracts : ∀ b, (x.world.accountD b).code = (w.accountD b).code ∧
    (x.world.accountD b).storage = (w.accountD b).storage
  logs : x.world.logs = w.logs
  refund : x.world.refund = w.refund
  absent : w.exists? m.target = false → m.target ≠ m.sender → m.target ≠ ctx.coinbase →
    x.world.exists? m.target = false

/-- A world that is the one from before, with one account charged and another paid. -/
theorem RolledBack.of_world {ctx : BlockContext} {m : Message} {w : World} {r : ExecutionResult}
    {x : Execution} {fees balance : U256} {nonce : U64}
    (hfees : fees.toNat = r.gasUsed.toNat * m.gasPrice.toNat)
    (hbalance : balance.toNat + fees.toNat = (w.balance m.sender).toNat)
    (hnonce : nonce.toNat = (w.nonce m.sender).toNat + 1)
    (hworld : x.world = (w.setAccount m.sender
      { w.accountD m.sender with balance, nonce }).addBalance ctx.coinbase fees) :
    RolledBack ctx m w r x := by
  -- Code and storage of all accounts are two fields that neither write changes.
  have hframe : ∀ {α : Type} (field : Account → α),
      (∀ account balance nonce, field { account with balance, nonce } = field account) →
      ∀ b, field (x.world.accountD b) = field (w.accountD b) := by
    intro α field hfield b
    rw [hworld]
    exact (setAccount_frame field (hfield _ _ _) b).trans (setAccount_frame field (hfield _ _ _) b)
  refine ⟨⟨fees, balance, nonce, hfees, hbalance, hnonce, hworld⟩, ?_, ?_, ?_, ?_⟩
  · exact fun b => ⟨hframe Account.code (fun _ _ _ => rfl) b,
      hframe Account.storage (fun _ _ _ => rfl) b⟩
  · rw [hworld]
    rfl
  · rw [hworld]
    rfl
  · intro habsent hsender hauthor
    have hkept : x.world.account? m.target = w.account? m.target := by
      rw [hworld]
      exact (account?_setAccount_of_ne _ _ hauthor).trans (account?_setAccount_of_ne _ _ hsender)
    rw [exists?, hkept]
    exact habsent

/-- The purchase, the count and the gas that is given back are one change of one account. -/
theorem Admission.addBalance_world (a : Admission) (m : Message) (w : World) (repaid : U256) :
    (a.world m w).addBalance m.sender repaid =
      w.setAccount m.sender
        { w.accountD m.sender with
          balance := ((w.balance m.sender).satSub a.gasCost).satAdd repaid
          nonce := (w.nonce m.sender).satAdd 1 } := by
  unfold world subBalance setNonce addBalance
  rw [modify_modify, modify_modify]
  rfl

/-- The program that ends in a revert is in any world with the same code. -/
theorem MayRevert.congr {ctx : BlockContext} {m : Message} {v w : World} (h : MayRevert ctx m v)
    (hcode : ∀ a, v.code a = w.code a) : MayRevert ctx m w := by
  obtain ⟨hknown, target, program, hrecipient, hprecompile, hdecode, hlast⟩ := h
  exact ⟨hknown, target, program, hrecipient, hprecompile, by rw [← hcode]; exact hdecode, hlast⟩

namespace Settled

variable {ctx : BlockContext} {m : Message} {w : World} {pool : GasPool} {a : Admission}
  {f : Frame World} {x : Execution} (h : Settled ctx m w pool a f x) (hfailed : f.failed = true)

include h hfailed

theorem rolledBack : RolledBack ctx m w (f.result m.gasLimit) x := by
  have hincluded := h.included
  have hfees := h.admitted.toNat_price hincluded.gasUsed_le
  have hprice := hincluded.price_split
  have hcost : a.gasCost.toNat ≤ (w.balance m.sender).toNat := h.admitted.gasCost_le
  have hrange := (w.balance m.sender).isLt
  have hundone : f.store = a.world m w := hincluded.undone hfailed
  have hworld := hincluded.world
  rw [hundone, Admission.addBalance_world] at hworld
  refine .of_world hfees ?_ ?_ hworld
  · rw [Word.toNat_satAdd_of_lt (by rw [Word.toNat_satSub]; omega), Word.toNat_satSub]
    omega
  · exact Word.toNat_satAdd_of_lt (Word.toNat_lt_max h.admitted.nonce_ne_max)

/-- A halt takes all gas, and what does not halt has reverted. -/
theorem gasUsed_of_failed (hrefund : w.refund = 0) :
    (f.result m.gasLimit).gasUsed = m.gasLimit ∨ MayRevert ctx m w := by
  have hback := f.toNat_gasBack h.gas_le
  cases h.concluded with
  | idle gas hvalue => cases hfailed
  | called hrecipient hok hprogram =>
    rw [hok] at hfailed
    cases hfailed
  | created hrecipient hok hnonce hcode hdeposit =>
    rw [hok] at hfailed
    cases hfailed
  | reverted gas hmay =>
    exact Or.inr (hmay.congr (Admission.world_frame Account.code fun _ _ _ => rfl))
  | halted =>
    have hnone : (Frame.failure (a.world m w) 0 Halt.exceptional).store.refund = 0 := hrefund
    rw [hnone, Word.toNat_ofNat, Nat.zero_mod, Nat.min_zero] at hback
    have hzero : (Frame.failure (a.world m w) 0 Halt.exceptional).gas.toNat = 0 := rfl
    refine Or.inl (Word.toNat_inj.1 ?_)
    rw [Frame.result, Word.toNat_satSub]
    omega

end Settled

/-! ## The message -/

/-- What a message that was included has left untouched. -/
structure Footprint (ctx : BlockContext) (m : Message) (w : World) (r : ExecutionResult)
    (x : Execution) : Prop where
  /-- Who takes no part is as before, in the pending layer too. -/
  others : ∀ b, b ≠ m.sender → b ≠ m.target → b ≠ ctx.coinbase →
    x.world.pending.get? b = w.pending.get? b ∧ x.world.account? b = w.account? b
  contracts : ∀ b, b ≠ m.target → (x.world.accountD b).code = (w.accountD b).code ∧
    (x.world.accountD b).storage = (w.accountD b).storage
  undone : r.failed = true → RolledBack ctx m w r x
  spent : r.failed = true → w.refund = 0 → r.gasUsed = m.gasLimit ∨ MayRevert ctx m w

theorem Settled.footprint {ctx : BlockContext} {m : Message} {w : World} {pool : GasPool}
    {a : Admission} {f : Frame World} {x : Execution} (h : Settled ctx m w pool a f x) :
    Footprint ctx m w (f.result m.gasLimit) x where
  others := by
    intro b hsender htarget hauthor
    have hother : ¬ m.Involves ctx b := by
      rintro (hb | hb | hb)
      · exact hsender hb
      · exact htarget hb
      · exact hauthor hb
    exact ⟨h.included.within.pending b hother, h.included.within.account? hother⟩
  contracts := fun b hb =>
    ⟨h.included.frame_of_ne Account.code (fun _ _ _ => rfl) hb,
      h.included.frame_of_ne Account.storage (fun _ _ _ => rfl) hb⟩
  undone := h.rolledBack
  spent := h.gasUsed_of_failed

/-- Whatever a message that is included does, it does it to its sender, its target and the author,
and to the code and storage of its target only. A message that fails leaves nothing but its price
and its count, and no gas unless it called a program that ends in a revert. -/
theorem message_leaves_footprint {ctx : BlockContext} {m : Message} {w : World} {pool : GasPool}
    {x : Execution} {r : ExecutionResult} (seat : Seat)
    (hx : Executors.stock.at seat ctx m w pool = .ok x) (hr : x.result = .ok r) :
    Footprint ctx m w r x := by
  obtain ⟨a, f, hsettled, rfl⟩ := Settled.of_apply hx hr
  exact hsettled.footprint

/-- A call that writes a slot, emits a log and reverts, and keeps some of its gas. -/
theorem message_leaves_footprint_revert :
    ∃ x r, Executors.stock.at .reference (sampleContext 19) (sampleMessage 18 60000) sampleWorld
        ⟨100000⟩ = .ok x ∧
      x.result = .ok r ∧ r.failed = true ∧ r.gasUsed ≠ 60000 ∧ x.world.logs = [] ∧
      MayRevert (sampleContext 19) (sampleMessage 18 60000) sampleWorld := by
  have hanswer : (Executors.stock.at .reference (sampleContext 19) (sampleMessage 18 60000)
      sampleWorld ⟨100000⟩).toOption.any (fun x => x.result.toOption.any fun r =>
        r.failed && decide (r.gasUsed ≠ 60000)) = true := by decide +kernel
  obtain ⟨x, hx, hresult⟩ := exists_of_any hanswer
  obtain ⟨r, hr, hkept⟩ := exists_of_any hresult
  rw [Bool.and_eq_true, decide_eq_true_eq] at hkept
  have hfootprint := message_leaves_footprint .reference hx hr
  exact ⟨x, r, hx, hr, hkept.1, hkept.2, (hfootprint.undone hkept.1).logs,
    (hfootprint.spent hkept.1 rfl).resolve_left hkept.2⟩

end TwinLedger
