import TwinLedger.Proofs.Execution.Ledger

/-!
# New contracts

A message without recipient creates a contract at an address that is computed from its sender and
its nonce. It can fail for four reasons (`CreationFails`), and they are looked at when the message
has been counted, so that a contract is never created at the address of its own sender. If it does
not fail, the account that is there afterwards is known but for its balance, whatever was there
before:

> `Settled.newContract`: a fresh account, with the data of the message for its code, or without code
> where the gas does not pay for the deposit and the rules let that pass.

What was at the address before can only be a balance, and storage, which is lost. The balance comes
from the books of the message.
-/

namespace TwinLedger

open World

/-- The gas that is left for a call or creation. -/
def Message.gasLeft (m : Message) (homestead : Bool) : Nat :=
  m.gasLimit.toNat - m.intrinsicGas homestead

/-- The gas that a creation spends if it does not fail: the deposit is charged if it can be paid. -/
def Message.creationGas (m : Message) (homestead : Bool) : Nat :=
  m.intrinsicGas homestead + if m.deposit ≤ m.gasLeft homestead then m.deposit else 0

/-! ## What is there afterwards -/

/-- A contract that a message has created, its balance aside. -/
structure NewContract (ctx : BlockContext) (m : Message) (address : Address) (w : World)
    (r : ExecutionResult) (x : Execution) : Prop where
  present : x.world.exists? address = true
  storage : (x.world.accountD address).storage = .empty
  nonce : x.world.nonce address = if ctx.rules.eip158 then 1 else 0
  code : x.world.code address = r.returnData
  returnData : r.returnData =
    if m.deposit ≤ m.gasLeft ctx.rules.homestead then m.data else []
  /-- From Homestead on the deposit is paid. -/
  homestead : ctx.rules.homestead = true → m.deposit ≤ m.gasLeft ctx.rules.homestead
  /-- The gas spent is used but for the refund, which takes at most half off. -/
  gas : r.gasUsed.toNat + min (m.creationGas ctx.rules.homestead / 2) w.refund.toNat =
    m.creationGas ctx.rules.homestead

/-- What a message comes to that creates a contract. -/
structure CreationOutcome (ctx : BlockContext) (m : Message) (address : Address) (w : World)
    (r : ExecutionResult) (x : Execution) : Prop where
  /-- The reasons to fail, read when the message has been counted. -/
  failed_iff : r.failed = true ↔
    CreationFails ctx m address (w.setNonce m.sender ((w.nonce m.sender).satAdd 1))
      (m.gasLeft ctx.rules.homestead)
  contract : r.failed = false → NewContract ctx m address w r x
  /-- The contract keeps what money was there, and gets the value and perhaps the fees. -/
  balance : r.failed = false → (x.world.balance address).toNat =
    (w.balance address).toNat + m.value.toNat +
      entry ctx.coinbase (r.gasUsed.toNat * m.gasPrice.toNat) address

/-! ## The end of a creation -/

namespace InPlace

variable (ctx : BlockContext) (m : Message) (address : Address) (w : World)

/-- Starting a creation earns no refund. -/
theorem refund_creationWorld : (creationWorld ctx m address w).refund = w.refund :=
  creationWorld_induction (P := fun v => v.refund = w.refund) (fun _ _ _ _ h => h) rfl ctx

/-- Starting a creation ends with a write to the contract. -/
theorem exists?_creationWorld : (creationWorld ctx m address w).exists? address = true := by
  unfold creationWorld
  rw [addBalance, World.modify, exists?, account?_setAccount_self]
  rfl

end InPlace

/-- The account of the contract at the end of a creation, and the gas that it took. -/
structure ContractAccount (ctx : BlockContext) (m : Message) (address : Address) (w : World)
    (gas : U64) (f : Frame World) : Prop where
  present : f.store.exists? address = true
  storage : (f.store.accountD address).storage = .empty
  nonce : f.store.nonce address = if ctx.rules.eip158 then 1 else 0
  code : f.store.code address = f.output
  output : f.output = if m.deposit ≤ gas.toNat then m.data else []
  homestead : ctx.rules.homestead = true → m.deposit ≤ gas.toNat
  gas : f.gas.toNat + (if m.deposit ≤ gas.toNat then m.deposit else 0) = gas.toNat
  refund : f.store.refund = w.refund

namespace CreationEnds

variable {ctx : BlockContext} {m : Message} {address : Address} {w : World} {gas : U64}
  {f : Frame World}

/-- A creation that failed had a reason to, and one that did not fail had none. -/
theorem failed_iff (h : CreationEnds ctx m address w gas f) :
    f.failed = true ↔ CreationFails ctx m address w gas.toNat := by
  cases h with
  | failed hfails => exact iff_of_true rfl hfails
  | deposited hfree hsplit => exact iff_of_false Bool.false_ne_true hfree
  | unpaid hfree hunpaid => exact iff_of_false Bool.false_ne_true hfree

theorem contractAccount (h : CreationEnds ctx m address w gas f) (hok : f.failed = false) :
    ContractAccount ctx m address w gas f := by
  have hfresh := fun {α : Type} (field : Account → α)
    (hfield : ∀ account balance, field { account with balance } = field account) =>
      InPlace.creationWorld_contract field hfield ctx m address w
  cases h with
  | failed hfails => cases hok
  | @deposited left hfree hsplit =>
    have hpaid : m.deposit ≤ gas.toNat := by omega
    refine ⟨exists?_setAccount (InPlace.exists?_creationWorld ctx m address w) _ _, ?_, ?_, ?_, ?_,
      fun _ => hpaid, ?_, InPlace.refund_creationWorld ctx m address w⟩
    · exact (setAccount_frame Account.storage (by rfl) _).trans
        (hfresh Account.storage fun _ _ => rfl)
    · exact (setAccount_frame Account.nonce (by rfl) _).trans (hfresh Account.nonce fun _ _ => rfl)
    · exact congrArg Account.code (accountD_modify_self _ _ _)
    · rw [if_pos hpaid]
      rfl
    · rw [if_pos hpaid]
      exact hsplit.symm
  | unpaid hfree hunpaid =>
    have hnone : ¬ m.deposit ≤ gas.toNat := Nat.not_le.2 hunpaid
    refine ⟨InPlace.exists?_creationWorld ctx m address w, hfresh Account.storage fun _ _ => rfl,
      hfresh Account.nonce fun _ _ => rfl, hfresh Account.code fun _ _ => rfl, ?_, ?_, ?_,
      InPlace.refund_creationWorld ctx m address w⟩
    · rw [if_neg hnone]
      rfl
    · -- From Homestead on this would have been a reason to fail.
      intro hhomestead
      exact absurd (Or.inr (Or.inr (Or.inr ⟨hhomestead, hunpaid⟩))) hfree
    · rw [if_neg hnone]
      rfl

end CreationEnds

/-! ## The message -/

/-- What the reasons to fail are read from is the world with the message counted. -/
theorem Admission.creationFails_iff {ctx : BlockContext} {m : Message} {w : World} {a : Admission}
    (address : Address) (gas : Nat) :
    CreationFails ctx m address (a.world m w) gas ↔
      CreationFails ctx m address (w.setNonce m.sender ((w.nonce m.sender).satAdd 1)) gas := by
  have hidentity : ((a.world m w).accountD address).identity =
      ((w.setNonce m.sender ((w.nonce m.sender).satAdd 1)).accountD address).identity := by
    by_cases haddress : address = m.sender
    · rw [haddress, accountD_world_self, setNonce, accountD_modify_self]
      rfl
    · rw [accountD_world_of_ne haddress, setNonce, accountD_modify_of_ne _ _ haddress]
  have hnonce : (a.world m w).nonce address =
      (w.setNonce m.sender ((w.nonce m.sender).satAdd 1)).nonce address :=
    congrArg Prod.fst hidentity
  have hcode : (a.world m w).code address =
      (w.setNonce m.sender ((w.nonce m.sender).satAdd 1)).code address :=
    congrArg Prod.snd hidentity
  rw [CreationFails, hnonce, hcode]
  rfl

namespace Settled

variable {ctx : BlockContext} {m : Message} {w : World} {pool : GasPool} {a : Admission}
  {f : Frame World} {x : Execution} (h : Settled ctx m w pool a f x)

include h

theorem toNat_gas : (a.gas m).toNat = m.gasLeft ctx.rules.homestead := by
  rw [Message.gasLeft, ← h.admitted.toNat_intrinsic]
  rfl

theorem creationEnds (hrecipient : m.recipient = none) :
    CreationEnds ctx m (Address.ofCreation m.sender m.nonce) (a.world m w) (a.gas m) f := by
  have henact := h.enact
  rw [InPlace.enact, hrecipient, h.admitted.nonce] at henact
  exact InPlace.creationEnds_of_create henact

/-- The sender has been counted, so its own address is taken. -/
theorem ne_sender_of_not_creationFails {address : Address} {gas : Nat}
    (hfree : ¬ CreationFails ctx m address (a.world m w) gas) : address ≠ m.sender := by
  intro haddress
  have hraised := Admission.nonce_world_self (a := a) h.admitted.nonce_ne_max
  have hnone := nonce_of_not_creationFails hfree
  rw [← haddress, hnone] at hraised
  cases hraised

/-- Gas that was spent is used but for the refund. -/
theorem gasUsed_add_refund {spent : Nat} (hspent : f.gas.toNat + spent = m.gasLimit.toNat) :
    (f.result m.gasLimit).gasUsed.toNat + min (spent / 2) f.store.refund.toNat = spent := by
  have hsplit := f.gasUsed_add_gasBack h.gas_le
  have hback := f.toNat_gasBack h.gas_le
  have hdiff : m.gasLimit.toNat - f.gas.toNat = spent := by omega
  rw [hdiff] at hback
  omega

/-- Settlement changes nothing at the contract but the balance. -/
theorem newContract (hrecipient : m.recipient = none) (hok : f.failed = false) :
    NewContract ctx m (Address.ofCreation m.sender m.nonce) w (f.result m.gasLimit) x := by
  have hcontract := (h.creationEnds hrecipient).contractAccount hok
  have hsettled := fun {α : Type} (field : Account → α)
    (hfield : ∀ account balance, field { account with balance } = field account) =>
      h.included.world_frame field hfield (Address.ofCreation m.sender m.nonce)
  have hgas := hcontract.gas
  have houtput := hcontract.output
  have hhomestead := hcontract.homestead
  rw [h.toNat_gas] at hgas houtput hhomestead
  refine ⟨?_, (hsettled Account.storage fun _ _ => rfl).trans hcontract.storage,
    (hsettled Account.nonce fun _ _ => rfl).trans hcontract.nonce,
    (hsettled Account.code fun _ _ => rfl).trans hcontract.code, houtput, hhomestead, ?_⟩
  · rw [h.included.world]
    exact exists?_setAccount (exists?_setAccount hcontract.present _ _) _ _
  · have hlimit : m.gasLeft ctx.rules.homestead + m.intrinsicGas ctx.rules.homestead =
        m.gasLimit.toNat := by
      have hle : a.intrinsic.toNat ≤ m.gasLimit.toNat := h.admitted.intrinsic_le
      rw [h.admitted.toNat_intrinsic] at hle
      exact Nat.sub_add_cancel hle
    have hrefund : f.store.refund = w.refund := hcontract.refund
    rw [← hrefund]
    apply h.gasUsed_add_refund
    rw [Message.creationGas]
    omega

/-- A message that creates a contract fails for one of the four reasons, or the contract is there
and has the value. -/
theorem creationOutcome (hrecipient : m.recipient = none)
    (hfunds : w.totalBalance < Word.range 256) :
    CreationOutcome ctx m (Address.ofCreation m.sender m.nonce) w (f.result m.gasLimit) x := by
  have hends := h.creationEnds hrecipient
  have hfailed : f.failed = true ↔ CreationFails ctx m (Address.ofCreation m.sender m.nonce)
      (a.world m w) (m.gasLeft ctx.rules.homestead) := by
    rw [← h.toNat_gas]
    exact hends.failed_iff
  refine ⟨hfailed.trans (Admission.creationFails_iff _ _), h.newContract hrecipient, ?_⟩
  intro hok
  have hne : Address.ofCreation m.sender m.nonce ≠ m.sender := by
    apply h.ne_sender_of_not_creationFails
    rw [← hfailed, Bool.not_eq_true]
    exact hok
  -- The contract pays for nothing, so it has what it had and what the books enter.
  have hbooks := (h.books hfunds).balance (Address.ofCreation m.sender m.nonce)
  rw [hok, Message.target_of_creation hrecipient] at hbooks
  have hsender : entry m.sender ((f.result m.gasLimit).gasUsed.toNat * m.gasPrice.toNat +
      m.moved false) (Address.ofCreation m.sender m.nonce) = 0 := if_neg hne
  have hvalue : entry (Address.ofCreation m.sender m.nonce) (m.moved false)
      (Address.ofCreation m.sender m.nonce) = m.value.toNat := if_pos rfl
  rw [hsender, hvalue] at hbooks
  exact hbooks

end Settled

/-- A new contract is not deleted: under the rules that delete empty accounts it has a nonce. -/
theorem NewContract.exists?_finalise {ctx : BlockContext} {m : Message} {address : Address}
    {w : World} {r : ExecutionResult} {x : Execution} (h : NewContract ctx m address w r x) :
    (x.world.finalise ctx.rules.eip158).exists? address = true := by
  have hpresent := h.present
  have hnonce := h.nonce
  rw [exists?, account?_finalise]
  cases heip158 : ctx.rules.eip158 with
  | false => exact hpresent
  | true =>
    obtain ⟨account, haccount⟩ := Option.isSome_iff_exists.1 hpresent
    have hone : account.nonce = 1 := by
      rw [World.nonce, accountD, haccount, heip158] at hnonce
      exact hnonce
    have hkept : x.world.isEmpty address = false := by
      rw [World.isEmpty, haccount, Option.all_some, ← Bool.not_eq_true, Account.isEmpty_iff]
      intro hempty
      rw [hone] at hempty
      exact absurd hempty.1 (by decide)
    rw [hkept, Bool.and_false, Bool.and_false]
    exact hpresent

end TwinLedger
