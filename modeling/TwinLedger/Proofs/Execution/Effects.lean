import TwinLedger.Proofs.Execution.Agreement
import TwinLedger.Proofs.Program.Decoding

/-!
# What a call or creation does

There are not many ways in which a call or creation can end:

> `Concluded`: there was nothing to do; or a value was moved to an account and the program of that
> account wrote (`ProgramWrites`); or a value was moved to a new contract, which may have got its
> code; or all was undone, because a program asked for it or because of a halt.

What has become of the world is then one of three things (`Enacted`): nothing, a call, a creation.
What was logged has been paid for with more than one of gas for each log (`Ended`). All of it is
read off the executor that writes in place, step by step: an instruction (`perform_cases`), a
program (`interpret_writes`, `revert_of_interpret`), and what is around the program
(`enact_cases`). A creation runs no program, so its ends are known to the last field
(`CreationEnds`). What holds after every call or creation is shown case by case from there on.
-/

namespace TwinLedger

/-! ## Programs -/

/-- What the program of an account can do to the world: write slots of that account, add refunds
and append logs. Only an account with code has a program that writes slots. -/
inductive ProgramWrites (address : Address) : World → World → Prop
  | done (w : World) : ProgramWrites address w w
  | slot {w v : World} (key value : Hash) (refund : U64) (hcode : w.code address ≠ [])
      (later : ProgramWrites address ((w.setStorage address key value).addRefund refund) v) :
      ProgramWrites address w v
  | log {w v : World} (l : Log) (later : ProgramWrites address (w.addLog l) v) :
      ProgramWrites address w v

namespace ProgramWrites

variable {address : Address} {w v : World}

theorem extends_of (h : ProgramWrites address w v) : w.Extends v := by
  induction h with
  | done w => exact .refl w
  | slot key value refund _ _ ih =>
    exact (((World.Extends.refl _).setAccount address _).addRefund refund).trans ih
  | log l _ ih => exact ((World.Extends.refl _).addLog l).trans ih

/-- What a write to a slot leaves alone in an account, a program leaves alone everywhere. -/
theorem frame {α : Type} (field : Account → α)
    (hfield : ∀ account key value, field (Account.setSlot account key value) = field account)
    (h : ProgramWrites address w v) (a : Address) :
    field (v.accountD a) = field (w.accountD a) := by
  induction h with
  | done w => rfl
  | slot key value refund _ _ ih =>
    rw [ih]
    exact World.setAccount_frame field (hfield _ key value) a
  | log l _ ih =>
    rw [ih]
    rfl

/-- A program leaves the other accounts alone. -/
theorem accountD_of_ne (h : ProgramWrites address w v) {a : Address} (ha : a ≠ address) :
    v.accountD a = w.accountD a := by
  induction h with
  | done w => rfl
  | slot key value refund _ _ ih =>
    rw [ih]
    exact World.accountD_setAccount_of_ne _ _ ha
  | log l _ ih =>
    rw [ih]
    rfl

/-- An account without code has no program. -/
theorem accountD_of_no_code (h : ProgramWrites address w v) (hcode : w.code address = [])
    (a : Address) : v.accountD a = w.accountD a := by
  induction h with
  | done w => rfl
  | slot key value refund hsome _ _ => exact absurd hcode hsome
  | log l _ ih => exact ih hcode

end ProgramWrites

/-- A log takes more than one of gas. -/
theorem Gas.two_le_of_logCost {topics length : Nat} {logCost cost : U64}
    (hlog : Gas.logCost topics length = .ok logCost) (h : Gas.instruction logCost = .ok cost) :
    2 ≤ cost.toNat := by
  have hlogCost := Word.checked_eq_ok_iff.1 hlog
  have hcost := Word.checked_eq_ok_iff.1 h
  unfold Gas.log at hlogCost
  omega

namespace InPlace

variable {address : Address} {byzantium : Bool}

/-- An instruction ends the run and writes nothing, or it writes and the run goes on with less
gas, by two for a log at least. -/
theorem perform_cases {i : Instruction} {gas : U64} {w : World}
    {next : U64 → World → Checked (Frame World)} {f : Frame World} (hcode : w.code address ≠ [])
    (h : perform address byzantium i gas w next = .ok f) :
    (f.store = w ∧ f.gas ≤ gas) ∨
      ∃ left v, next left v = .ok f ∧
        left.toNat + 2 * v.logs.length ≤ gas.toNat + 2 * w.logs.length ∧ v.code address ≠ [] ∧
        ∀ u, ProgramWrites address v u → ProgramWrites address w u := by
  rcases perform_inv h with rfl | ⟨cost, left, hcost, hleft, -, hgo⟩
  · exact Or.inl ⟨rfl, Nat.le_refl _⟩
  · have hle := Word.le_of_sub? hleft
    cases i with
    | stop =>
      cases hgo
      exact Or.inl ⟨rfl, hle⟩
    | ret data =>
      cases hgo
      exact Or.inl ⟨rfl, hle⟩
    | revert =>
      cases hgo
      exact Or.inl ⟨rfl, hle⟩
    | store key value =>
      refine Or.inr ⟨left, _, hgo, Nat.add_le_add_right hle _, ?_, fun u hu => .slot _ _ _ hcode hu⟩
      have hkeep : ((w.setStorage address key value).accountD address).code =
          (w.accountD address).code := World.setAccount_frame Account.code (by rfl) address
      exact fun hnone => hcode (hkeep.symm.trans hnone)
    | log topics data =>
      refine Or.inr ⟨left, _, hgo, ?_, hcode, fun u hu => .log _ hu⟩
      obtain ⟨logCost, hlog, hprice⟩ := exists_of_bind hcost
      have htwo := Gas.two_le_of_logCost hlog hprice
      have hsplit := Word.sub?_eq_some_iff.1 hleft
      rw [effect, World.addLog, List.length_append, List.length_singleton]
      omega

/-- Running bytes does what a program can do, and the gas pays for the logs. -/
theorem interpret_writes {code : Bytes} {gas : U64} {w : World} {f : Frame World}
    (hcode : w.code address ≠ []) (h : interpret address byzantium code gas w = .ok f) :
    ProgramWrites address w f.store ∧
      f.gas.toNat + 2 * f.store.logs.length ≤ gas.toNat + 2 * w.logs.length := by
  by_cases hempty : code = []
  · rw [hempty, interpret_nil] at h
    cases h
    exact ⟨.done w, Nat.le_refl _⟩
  · cases hread : Instruction.read 0 code with
    | error e =>
      rw [interpret_of_read_error hempty hread] at h
      cases h
      exact ⟨.done w, Nat.le_refl _⟩
    | ok pair =>
      obtain ⟨i, rest⟩ := pair
      rw [interpret_of_read hread] at h
      rcases perform_cases hcode h with ⟨hstore, hgas⟩ | ⟨left, v, hnext, hleft, hcode', hwrites⟩
      · rw [hstore]
        exact ⟨.done w, Nat.add_le_add_right hgas _⟩
      · obtain ⟨hlater, hgas⟩ := interpret_writes hcode' hnext
        exact ⟨hwrites _ hlater, Nat.le_trans hgas hleft⟩
termination_by code.length
decreasing_by
  have := Instruction.length_of_read ‹_›
  have := Instruction.size_pos ‹_›
  omega

/-- A run that reverts has come to an instruction that says so, under rules that know it. -/
theorem revert_of_execute {program : List Instruction} {gas : U64} {w : World} {f : Frame World}
    (h : execute address byzantium program gas w = .ok f) (hrevert : f.outcome = .error .revert) :
    Instruction.revert ∈ program ∧ byzantium = true := by
  induction program generalizing gas w with
  | nil =>
    cases h
    cases hrevert
  | cons i rest ih =>
    rcases perform_inv h with rfl | ⟨cost, left, -, -, hknown, hgo⟩
    · cases hrevert
    · have hlater : ∀ v, execute address byzantium rest left v = .ok f →
          Instruction.revert ∈ i :: rest ∧ byzantium = true := fun v hv =>
        ⟨List.mem_cons_of_mem i (ih hv).1, (ih hv).2⟩
      cases i with
      | stop =>
        cases hgo
        cases hrevert
      | ret data =>
        cases hgo
        cases hrevert
      | revert => exact ⟨List.mem_cons_self, hknown rfl⟩
      | store key value => exact hlater _ hgo
      | log topics data => exact hlater _ hgo

/-- Bytes whose run reverts are a program, and its last instruction says so. -/
theorem revert_of_interpret {code : Bytes} {gas : U64} {w : World} {f : Frame World}
    (h : interpret address byzantium code gas w = .ok f) (hrevert : f.outcome = .error .revert) :
    byzantium = true ∧ ∃ program, decode code = .ok program ∧ program.getLast? = some .revert := by
  cases hdecode : decode code with
  | error e =>
    -- Whatever was run before the fault was met, it ended in a halt.
    obtain ⟨g, hg, hhalt, -⟩ := interpret_of_decode_error hdecode gas w
    rw [Except.ok.inj (h.symm.trans hg), hhalt] at hrevert
    cases hrevert
  | ok program =>
    rw [interpret_of_decode hdecode] at h
    obtain ⟨hmem, hknown⟩ := revert_of_execute h hrevert
    exact ⟨hknown, program, rfl, (decodeFrom_eq_ok_iff.1 hdecode).getLast?_of_mem hmem rfl⟩

end InPlace

/-! ## Calls and creations -/

namespace InPlace

/-- The world in which a creation deposits its code. -/
def creationWorld (ctx : BlockContext) (m : Message) (address : Address) (w : World) : World :=
  ((if ctx.rules.eip158 then (w.createAccount address).setNonce address 1
    else w.createAccount address).subBalance m.sender m.value).addBalance address m.value

/-- The end of a creation, once the account is there and the value moved. -/
def depositCode (ctx : BlockContext) (m : Message) (address : Address) (gas : U64) (paid : World) :
    Checked (Frame World) :=
  if ctx.rules.eip158 && decide (Gas.maxCodeSize < m.data.length) then
    .ok (.failure paid gas .exceptional)
  else do
    let deposit ← Gas.deposit m.data.length
    match gas.sub? deposit with
    | some left => .ok (.success (paid.setCode address m.data) left m.data)
    | none =>
      if ctx.rules.homestead then .ok (.failure paid gas .exceptional)
      else .ok (.success paid gas [])

theorem create_eq (ctx : BlockContext) (m : Message) (nonce : U64) (w : World) (gas : U64) :
    create ctx m nonce w gas =
      if w.nonce (Address.ofCreation m.sender nonce) != 0 ||
          !(w.code (Address.ofCreation m.sender nonce)).isEmpty then
        .ok (.failure w 0 .exceptional)
      else
        (depositCode ctx m (Address.ofCreation m.sender nonce) gas
          (creationWorld ctx m (Address.ofCreation m.sender nonce) w)).map
          (settleFrame w.checkpoint) := by
  unfold create depositCode creationWorld
  simp only
  split
  · rfl
  · split
    · rfl
    · cases Gas.deposit m.data.length with
      | error e => rfl
      | ok deposit =>
        simp only [bind, Except.bind]
        cases gas.sub? deposit with
        | some left => rfl
        | none => cases ctx.rules.homestead <;> rfl

end InPlace

/-- The price of the code that a message would deposit. -/
def Message.deposit (m : Message) : Nat := Gas.codeByte * m.data.length

/-- Why a creation fails: the address is taken, the code is too long, or the gas does not pay for
the deposit where that is an error. -/
def CreationFails (ctx : BlockContext) (m : Message) (address : Address) (w : World)
    (gas : Nat) : Prop :=
  w.nonce address ≠ 0 ∨ w.code address ≠ [] ∨
    (ctx.rules.eip158 = true ∧ Gas.maxCodeSize < m.data.length) ∨
    (ctx.rules.homestead = true ∧ gas < m.deposit)

section

variable {ctx : BlockContext} {m : Message} {address : Address} {w : World} {gas : Nat}
  (h : ¬ CreationFails ctx m address w gas)

include h

theorem nonce_of_not_creationFails : w.nonce address = 0 :=
  Decidable.byContradiction fun hnonce => h (Or.inl hnonce)

theorem code_of_not_creationFails : w.code address = [] :=
  Decidable.byContradiction fun hcode => h (Or.inr (Or.inl hcode))

end

/-- How a creation can end that starts with the given gas. -/
inductive CreationEnds (ctx : BlockContext) (m : Message) (address : Address) (w : World)
    (gas : U64) : Frame World → Prop
  /-- All was undone, and all gas is gone. -/
  | failed (hfails : CreationFails ctx m address w gas.toNat) :
      CreationEnds ctx m address w gas (.failure w 0 .exceptional)
  /-- The deposit was paid, and the data are the code. -/
  | deposited {left : U64} (hfree : ¬ CreationFails ctx m address w gas.toNat)
      (hsplit : gas.toNat = left.toNat + m.deposit) :
      CreationEnds ctx m address w gas
        (.success ((InPlace.creationWorld ctx m address w).setCode address m.data) left m.data)
  /-- The gas did not pay for the deposit, and the contract is there without code. -/
  | unpaid (hfree : ¬ CreationFails ctx m address w gas.toNat)
      (hunpaid : gas.toNat < m.deposit) :
      CreationEnds ctx m address w gas
        (.success (InPlace.creationWorld ctx m address w) gas [])

/-- What a message can be enacted as, by a sender whose nonce was the given one. -/
inductive Enacted (ctx : BlockContext) (m : Message) (nonce : U64) (w : World) : World → Prop
  /-- There was nothing to do, or it was undone. -/
  | nothing : Enacted ctx m nonce w w
  /-- The value was moved and the program of the target ran. -/
  | called {target : Address} {v : World} (hrecipient : m.recipient = some target)
      (hprogram : ProgramWrites target (InPlace.callWorld m target w) v) :
      Enacted ctx m nonce w v
  /-- The value was moved to a new contract. -/
  | created {v : World} (hrecipient : m.recipient = none)
      (hnonce : w.nonce (Address.ofCreation m.sender nonce) = 0)
      (hcode : w.code (Address.ofCreation m.sender nonce) = [])
      (hdeposit : v = InPlace.creationWorld ctx m (Address.ofCreation m.sender nonce) w ∨
        v = (InPlace.creationWorld ctx m (Address.ofCreation m.sender nonce) w).setCode
          (Address.ofCreation m.sender nonce) m.data) :
      Enacted ctx m nonce w v

/-- The account that a message is about: the one that it calls, or that of the contract that it
creates. -/
def Message.target (m : Message) : Address :=
  m.recipient.getD (Address.ofCreation m.sender m.nonce)

namespace Message

variable {m : Message}

theorem target_of_recipient {target : Address} (h : m.recipient = some target) :
    m.target = target := by
  rw [Message.target, h, Option.getD_some]

theorem target_of_creation (h : m.recipient = none) :
    m.target = Address.ofCreation m.sender m.nonce := by
  rw [Message.target, h, Option.getD_none]

end Message

/-- The message calls an account whose program ends in a revert, under rules that know it. -/
def MayRevert (ctx : BlockContext) (m : Message) (w : World) : Prop :=
  ctx.rules.byzantium = true ∧ ∃ target program, m.recipient = some target ∧
    Precompile.at? target = none ∧ decode (w.code target) = .ok program ∧
    program.getLast? = some .revert

/-- How a call or creation can conclude, by a sender whose nonce was the given one. -/
inductive Concluded (ctx : BlockContext) (m : Message) (nonce : U64) (w : World) :
    Frame World → Prop
  /-- There was nothing to do. -/
  | idle (gas : U64) (hvalue : m.value = 0) : Concluded ctx m nonce w (.success w gas [])
  /-- The value was moved and the program of the target ran to its end. -/
  | called {target : Address} {f : Frame World} (hrecipient : m.recipient = some target)
      (hok : f.failed = false)
      (hprogram : ProgramWrites target (InPlace.callWorld m target w) f.store) :
      Concluded ctx m nonce w f
  /-- The value was moved to a new contract. -/
  | created {f : Frame World} (hrecipient : m.recipient = none)
      (hok : f.failed = false)
      (hnonce : w.nonce (Address.ofCreation m.sender nonce) = 0)
      (hcode : w.code (Address.ofCreation m.sender nonce) = [])
      (hdeposit : f.store = InPlace.creationWorld ctx m (Address.ofCreation m.sender nonce) w ∨
        f.store = (InPlace.creationWorld ctx m (Address.ofCreation m.sender nonce) w).setCode
          (Address.ofCreation m.sender nonce) m.data) :
      Concluded ctx m nonce w f
  /-- The program asked for all to be undone, and keeps its gas. -/
  | reverted (gas : U64) (hmay : MayRevert ctx m w) :
      Concluded ctx m nonce w (.failure w gas .revert)
  /-- All was undone, and all gas is gone. -/
  | halted : Concluded ctx m nonce w (.failure w 0 .exceptional)

namespace Concluded

variable {ctx : BlockContext} {m : Message} {nonce : U64} {w : World} {f : Frame World}

theorem enacted (h : Concluded ctx m nonce w f) : Enacted ctx m nonce w f.store := by
  cases h with
  | idle gas hvalue => exact .nothing
  | called hrecipient hok hprogram => exact .called hrecipient hprogram
  | created hrecipient hok hnonce hcode hdeposit =>
    exact .created hrecipient hnonce hcode hdeposit
  | reverted gas hmay => exact .nothing
  | halted => exact .nothing

end Concluded

/-- How a call or creation ends that started in the given world with the given gas. The gas pays
two for each log, so that a log is still paid for where a refund takes half off. -/
structure Ended (w : World) (gas : U64) (f : Frame World) : Prop where
  gas_le : f.gas ≤ gas
  paid : f.gas.toNat + 2 * f.store.logs.length ≤ gas.toNat + 2 * w.logs.length
  undone : f.failed → f.store = w

theorem Ended.of_store_eq {w : World} {gas : U64} {f : Frame World} (hstore : f.store = w)
    (hgas : f.gas ≤ gas) : Ended w gas f := by
  refine ⟨hgas, ?_, fun _ => hstore⟩
  rw [hstore]
  exact Nat.add_le_add_right hgas _

namespace InPlace

section

variable {P : World → Prop} {m : Message} {address : Address} {w : World}
  (hwrite : ∀ v a account, a = m.sender ∨ a = address → P v → P (v.setAccount a account)) (h : P w)

include hwrite h

/-- A call starts with writes to the sender and the target. -/
theorem callWorld_induction : P (callWorld m address w) := by
  have hpresent : P (if w.exists? address then w else w.createAccount address) := by
    split
    · exact h
    · exact hwrite _ _ _ (Or.inr rfl) h
  exact hwrite _ _ _ (Or.inr rfl) (hwrite _ _ _ (Or.inl rfl) hpresent)

/-- A creation starts with writes to the sender and the contract. -/
theorem creationWorld_induction (ctx : BlockContext) : P (creationWorld ctx m address w) := by
  have hcreated : P (w.createAccount address) := hwrite _ _ _ (Or.inr rfl) h
  have hstarted : P (if ctx.rules.eip158 then (w.createAccount address).setNonce address 1
      else w.createAccount address) := by
    split
    · exact hwrite _ _ _ (Or.inr rfl) hcreated
    · exact hcreated
  exact hwrite _ _ _ (Or.inr rfl) (hwrite _ _ _ (Or.inl rfl) hstarted)

end

/-- Starting a call emits no logs. -/
theorem logs_callWorld (m : Message) (target : Address) (w : World) :
    (callWorld m target w).logs = w.logs :=
  callWorld_induction (P := fun v => v.logs = w.logs) (fun _ _ _ _ h => h) rfl

/-- Starting a creation emits no logs. -/
theorem logs_creationWorld (ctx : BlockContext) (m : Message) (address : Address) (w : World) :
    (creationWorld ctx m address w).logs = w.logs :=
  creationWorld_induction (P := fun v => v.logs = w.logs) (fun _ _ _ _ h => h) rfl ctx

theorem extends_callWorld (m : Message) (target : Address) (w : World) :
    w.Extends (callWorld m target w) :=
  callWorld_induction (fun _ a account _ h => h.setAccount a account) (.refl w)

theorem extends_creationWorld (ctx : BlockContext) (m : Message) (address : Address) (w : World) :
    w.Extends (creationWorld ctx m address w) :=
  creationWorld_induction (fun _ a account _ h => h.setAccount a account) (.refl w) ctx

/-- Starting a call changes balances only. -/
theorem callWorld_frame {α : Type} (field : Account → α)
    (hfield : ∀ account balance, field { account with balance } = field account) (m : Message)
    (target : Address) (w : World) (a : Address) :
    field ((callWorld m target w).accountD a) = field (w.accountD a) := by
  unfold callWorld
  rw [World.pay_frame field hfield]
  split
  · rfl
  · next hnone => exact World.createAccount_frame field (Bool.eq_false_iff.2 hnone) a

/-- Starting a creation changes balances only, but for the account of the contract. -/
theorem creationWorld_frame {α : Type} (field : Account → α)
    (hfield : ∀ account balance, field { account with balance } = field account)
    (ctx : BlockContext) (m : Message) {address : Address} (w : World) {a : Address}
    (ha : a ≠ address) :
    field ((creationWorld ctx m address w).accountD a) = field (w.accountD a) := by
  have hcreated : (w.createAccount address).accountD a = w.accountD a :=
    World.accountD_setAccount_of_ne w _ ha
  unfold creationWorld
  rw [World.pay_frame field hfield]
  split
  · rw [World.setNonce, World.accountD_modify_of_ne _ _ ha, hcreated]
  · rw [hcreated]

/-- The account of a new contract is a fresh one, but for the balance. -/
theorem creationWorld_contract {α : Type} (field : Account → α)
    (hfield : ∀ account balance, field { account with balance } = field account)
    (ctx : BlockContext) (m : Message) (address : Address) (w : World) :
    field ((creationWorld ctx m address w).accountD address) =
      field { nonce := if ctx.rules.eip158 then 1 else 0 } := by
  have hcreated : (w.createAccount address).accountD address = { balance := w.balance address } :=
    World.accountD_setAccount_self _ _ _
  unfold creationWorld
  rw [World.pay_frame field hfield]
  cases ctx.rules.eip158 with
  | true =>
    rw [if_pos rfl, if_pos rfl, World.setNonce, World.accountD_modify_self, hcreated]
    exact hfield { nonce := 1 } (w.balance address)
  | false =>
    rw [if_neg Bool.false_ne_true, if_neg Bool.false_ne_true, hcreated]
    exact hfield { nonce := 0 } (w.balance address)

/-- A frame that is settled keeps what was done, or it is back where it started. -/
theorem settleFrame_cases {ctx : BlockContext} {m : Message} {nonce : U64} {w : World} {gas : U64}
    {f : Frame World} (hext : w.Extends f.store)
    (hpaid : f.gas.toNat + 2 * f.store.logs.length ≤ gas.toNat + 2 * w.logs.length)
    (hok : f.failed = false → Concluded ctx m nonce w f)
    (hrevert : f.outcome = .error .revert → MayRevert ctx m w) :
    Concluded ctx m nonce w (settleFrame w.checkpoint f) ∧
      Ended w gas (settleFrame w.checkpoint f) := by
  have hback := World.restore_checkpoint hext
  have hle : f.gas.toNat ≤ gas.toNat := by
    have := hext.logs.length_le
    omega
  obtain ⟨store, left, outcome⟩ := f
  cases outcome with
  | ok output => exact ⟨hok rfl, hle, hpaid, fun hfailed => nomatch hfailed⟩
  | error halt =>
    simp only [settleFrame, hback]
    cases halt with
    | revert => exact ⟨.reverted left (hrevert rfl), .of_store_eq rfl hle⟩
    | exceptional => exact ⟨.halted, .of_store_eq rfl (Nat.zero_le _)⟩

theorem enter_writes {ctx : BlockContext} {m : Message} {target : Address} {gas : U64}
    {precompile : Option Precompile} {paid : World} {f : Frame World}
    (h : enter ctx m target gas precompile paid = .ok f) :
    ProgramWrites target paid f.store ∧
      f.gas.toNat + 2 * f.store.logs.length ≤ gas.toNat + 2 * paid.logs.length := by
  unfold enter at h
  split at h
  · simp only [bind, Except.bind] at h
    split at h
    · cases h
    · split at h
      · cases h
        exact ⟨.done paid, Nat.le_refl _⟩
      · next hleft =>
        cases h
        exact ⟨.done paid, Nat.add_le_add_right (Word.le_of_sub? hleft) _⟩
  · by_cases hcode : paid.code target = []
    · rw [hcode, interpret_nil] at h
      cases h
      exact ⟨.done paid, Nat.le_refl _⟩
    · exact interpret_writes hcode h

/-- A call that reverts has run a program that says so, the program of the account called. -/
theorem mayRevert_of_enter {ctx : BlockContext} {m : Message} {target : Address} {gas : U64}
    {w : World} {f : Frame World} (hrecipient : m.recipient = some target)
    (h : enter ctx m target gas (Precompile.at? target) (callWorld m target w) = .ok f)
    (hrevert : f.outcome = .error .revert) : MayRevert ctx m w := by
  cases hprecompile : Precompile.at? target with
  | some p =>
    rw [hprecompile] at h
    obtain ⟨cost, -, hpaid⟩ := exists_of_bind h
    cases hleft : gas.sub? cost with
    | none =>
      rw [hleft] at hpaid
      cases hpaid
      cases hrevert
    | some left =>
      rw [hleft] at hpaid
      cases hpaid
      cases hrevert
  | none =>
    rw [hprecompile] at h
    obtain ⟨hknown, program, hdecode, hlast⟩ := revert_of_interpret h hrevert
    have hcode : (callWorld m target w).code target = w.code target :=
      callWorld_frame Account.code (fun _ _ => rfl) m target w target
    rw [hcode] at hdecode
    exact ⟨hknown, target, program, hrecipient, hprecompile, hdecode, hlast⟩

theorem call_cases {ctx : BlockContext} {m : Message} {target : Address} {nonce : U64} {w : World}
    {gas : U64} {f : Frame World} (hrecipient : m.recipient = some target)
    (h : call ctx m target w gas = .ok f) :
    Concluded ctx m nonce w f ∧ Ended w gas f := by
  rw [call_eq] at h
  split at h
  · next hidle =>
    cases h
    rw [Bool.and_eq_true, beq_iff_eq] at hidle
    exact ⟨.idle gas hidle.2, .of_store_eq rfl (Nat.le_refl _)⟩
  · cases henter : enter ctx m target gas (Precompile.at? target) (callWorld m target w) with
    | error e =>
      rw [henter] at h
      cases h
    | ok g =>
      rw [henter] at h
      cases h
      obtain ⟨hwrites, hgas⟩ := enter_writes henter
      rw [logs_callWorld] at hgas
      exact settleFrame_cases ((extends_callWorld m target w).trans hwrites.extends_of) hgas
        (fun hok => .called hrecipient hok hwrites) (mayRevert_of_enter hrecipient henter)

/-- At an address that is free, a creation ends as the deposit decides. -/
theorem creationEnds_of_depositCode {ctx : BlockContext} {m : Message} {address : Address}
    {w : World} {gas : U64} {f : Frame World} (hnonce : w.nonce address = 0)
    (hcode : w.code address = [])
    (h : depositCode ctx m address gas (creationWorld ctx m address w) = .ok f) :
    CreationEnds ctx m address w gas (settleFrame w.checkpoint f) := by
  have hfails : CreationFails ctx m address w gas.toNat ↔
      (ctx.rules.eip158 = true ∧ Gas.maxCodeSize < m.data.length) ∨
        (ctx.rules.homestead = true ∧ gas.toNat < m.deposit) := by
    simp only [CreationFails, hnonce, hcode, ne_eq, not_true_eq_false, false_or]
  -- What halts is back in the world that the creation started in.
  have hhalts : CreationFails ctx m address w gas.toNat → CreationEnds ctx m address w gas
      (settleFrame w.checkpoint (.failure (creationWorld ctx m address w) gas .exceptional)) := by
    intro hreason
    rw [settleFrame, Frame.failure,
      World.restore_checkpoint (extends_creationWorld ctx m address w)]
    exact .failed hreason
  unfold depositCode at h
  split at h
  · next hlong =>
    cases h
    rw [Bool.and_eq_true, decide_eq_true_eq] at hlong
    exact hhalts (hfails.2 (Or.inl hlong))
  · next hshort =>
    rw [Bool.and_eq_true, decide_eq_true_eq] at hshort
    obtain ⟨deposit, hdeposit, hpaid⟩ := exists_of_bind h
    have hprice : deposit.toNat = m.deposit := Word.checked_eq_ok_iff.1 hdeposit
    split at hpaid
    · next left hleft =>
      cases hpaid
      have hsplit := Word.sub?_eq_some_iff.1 hleft
      refine .deposited ?_ (by omega)
      rw [hfails, not_or]
      exact ⟨hshort, fun hunpaid => by omega⟩
    · next hleft =>
      have hunpaid : gas.toNat < m.deposit := by
        rw [← hprice]
        exact Word.sub?_eq_none_iff.1 hleft
      split at hpaid
      · next hhomestead =>
        cases hpaid
        exact hhalts (hfails.2 (Or.inr ⟨hhomestead, hunpaid⟩))
      · next hfrontier =>
        cases hpaid
        refine .unpaid ?_ hunpaid
        rw [hfails, not_or]
        exact ⟨hshort, fun hpays => hfrontier hpays.1⟩

/-- A creation ends as the address and the deposit decide. -/
theorem creationEnds_of_create {ctx : BlockContext} {m : Message} {nonce : U64} {w : World}
    {gas : U64} {f : Frame World} (h : create ctx m nonce w gas = .ok f) :
    CreationEnds ctx m (Address.ofCreation m.sender nonce) w gas f := by
  rw [create_eq] at h
  split at h
  · next htaken =>
    cases h
    refine .failed ?_
    rw [Bool.or_eq_true] at htaken
    rcases htaken with hnonce | hcode
    · exact Or.inl (by simpa using hnonce)
    · exact Or.inr (Or.inl (by simpa using hcode))
  · next hfree =>
    rw [Bool.or_eq_true, not_or] at hfree
    cases hdeposit : depositCode ctx m (Address.ofCreation m.sender nonce) gas
        (creationWorld ctx m (Address.ofCreation m.sender nonce) w) with
    | error e =>
      rw [hdeposit] at h
      cases h
    | ok g =>
      rw [hdeposit] at h
      cases h
      exact creationEnds_of_depositCode (by simpa using hfree.1) (by simpa using hfree.2) hdeposit

theorem create_cases {ctx : BlockContext} {m : Message} {nonce : U64} {w : World} {gas : U64}
    {f : Frame World} (hrecipient : m.recipient = none) (h : create ctx m nonce w gas = .ok f) :
    Concluded ctx m nonce w f ∧ Ended w gas f := by
  have hlogs := logs_creationWorld ctx m (Address.ofCreation m.sender nonce) w
  have hpaid : ∀ {left : U64}, left ≤ gas →
      left.toNat + 2 * (creationWorld ctx m (Address.ofCreation m.sender nonce) w).logs.length ≤
        gas.toNat + 2 * w.logs.length := by
    intro left hle
    rw [hlogs]
    exact Nat.add_le_add_right hle _
  cases creationEnds_of_create h with
  | failed hfails => exact ⟨.halted, .of_store_eq rfl (Nat.zero_le _)⟩
  | @deposited left hfree hsplit =>
    have hle : left ≤ gas := Word.le_iff.2 (by omega)
    exact ⟨.created hrecipient rfl (nonce_of_not_creationFails hfree)
      (code_of_not_creationFails hfree) (Or.inr rfl),
      hle, hpaid hle, fun hfailed => nomatch hfailed⟩
  | unpaid hfree hunpaid =>
    exact ⟨.created hrecipient rfl (nonce_of_not_creationFails hfree)
      (code_of_not_creationFails hfree) (Or.inl rfl),
      Nat.le_refl _, hpaid (Nat.le_refl _), fun hfailed => nomatch hfailed⟩

theorem enact_cases {ctx : BlockContext} {m : Message} {nonce : U64} {w : World} {gas : U64}
    {f : Frame World} (h : enact ctx m nonce w gas = .ok f) :
    Concluded ctx m nonce w f ∧ Ended w gas f := by
  unfold enact at h
  cases hrecipient : m.recipient with
  | none =>
    rw [hrecipient] at h
    exact create_cases hrecipient h
  | some target =>
    rw [hrecipient] at h
    exact call_cases hrecipient h

end InPlace

end TwinLedger
