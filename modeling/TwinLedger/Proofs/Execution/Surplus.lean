import TwinLedger.Proofs.Execution.Ledger
import TwinLedger.Proofs.Execution.Lockstep

/-!
# More gas than is needed

A larger gas limit costs more at first: the sender pays for all of it, and the pool gives all of it
away. If the message is also fine with less, nothing of that remains. On its way the world is the
one of the smaller limit, but for an amount that the sender lacks:

> `Lacks`: the second world is the first without an amount of one balance.

No call or creation that ends well finds out (`enact_surplus`): a program does not see balances, and
the sender can still pay the value. What is left of the gas is larger by the surplus, so the refund
and the gas used are the same, and the amount comes back with the gas.

The one exception is a creation before Homestead, which goes on without its code if the deposit
cannot be paid.
-/

namespace TwinLedger

open World

/-! ## A world that lacks an amount -/

/-- The second world is the first without an amount of the balance of an account that is there. -/
structure Lacks (s : Address) (amount : U256) (v w : World) : Prop where
  eq : w = v.subBalance s amount
  covered : amount ≤ v.balance s
  present : v.exists? s = true

namespace Lacks

variable {s : Address} {amount : U256} {v w : World} (h : Lacks s amount v w)

include h

/-- Beside balances the worlds are the same. -/
theorem frame {α : Type} (field : Account → α)
    (hfield : ∀ account balance, field { account with balance } = field account) (a : Address) :
    field (w.accountD a) = field (v.accountD a) := by
  rw [h.eq]
  exact setAccount_frame field (hfield _ _) a

theorem exists?_eq (a : Address) : w.exists? a = v.exists? a := by
  rw [h.eq]
  by_cases ha : a = s
  · rw [ha, h.present]
    exact exists?_setAccount h.present _ _
  · exact congrArg Option.isSome (account?_setAccount_of_ne v _ ha)

theorem refund_eq : w.refund = v.refund := by
  rw [h.eq]
  rfl

theorem addRefund (gas : U64) : Lacks s amount (v.addRefund gas) (w.addRefund gas) := by
  rw [h.eq]
  exact ⟨rfl, h.covered, h.present⟩

theorem addLog (l : Log) : Lacks s amount (v.addLog l) (w.addLog l) := by
  rw [h.eq]
  exact ⟨rfl, h.covered, h.present⟩

/-- A change that has nothing to do with the balance can be made in both worlds. -/
theorem modify (a : Address) {f : Account → Account}
    (hf : ∀ account balance, f { account with balance } = { f account with balance }) :
    Lacks s amount (v.modify a f) (w.modify a f) := by
  have hbalance : ∀ account, (f account).balance = account.balance := by
    intro account
    have hsame : f account = { f account with balance := account.balance } :=
      hf account account.balance
    rw [hsame]
  refine ⟨?_, ?_, exists?_setAccount h.present a _⟩
  · rw [h.eq]
    unfold subBalance
    by_cases ha : a = s
    · rw [ha, modify_modify, modify_modify]
      apply modify_congr
      rw [hbalance]
      exact hf _ _
    · exact modify_comm v (Ne.symm ha) _ _
  · have hsame : (v.modify a f).balance s = v.balance s :=
      setAccount_frame Account.balance (hbalance _) s
    rw [hsame]
    exact h.covered

theorem createAccount (a : Address) :
    Lacks s amount (v.createAccount a) (w.createAccount a) :=
  h.modify a (f := fun account => { balance := account.balance }) fun _ _ => rfl

theorem setNonce (a : Address) (nonce : U64) :
    Lacks s amount (v.setNonce a nonce) (w.setNonce a nonce) := h.modify a fun _ _ => rfl

theorem setCode (a : Address) (code : Bytes) :
    Lacks s amount (v.setCode a code) (w.setCode a code) := h.modify a fun _ _ => rfl

/-- What is paid beside the amount can be paid in both worlds. -/
theorem subBalance {value : U256}
    (hvalue : amount.toNat + value.toNat ≤ (v.balance s).toNat) :
    Lacks s amount (v.subBalance s value) (w.subBalance s value) := by
  refine ⟨?_, ?_, exists?_setAccount h.present s _⟩
  · rw [h.eq]
    unfold World.subBalance
    rw [modify_modify, modify_modify]
    apply modify_congr
    have hcomm : ((v.balance s).satSub amount).satSub value =
        ((v.balance s).satSub value).satSub amount :=
      Word.toNat_inj.1 (Nat.sub_right_comm _ _ _)
    exact congrArg (fun balance => { v.accountD s with balance }) hcomm
  · have hcovered : value ≤ v.balance s := Word.le_iff.2 (by omega)
    have hpaid := toNat_balance_subBalance hcovered s
    rw [entry, if_pos rfl] at hpaid
    exact Word.le_iff.2 (by omega)

/-- What fits into a balance fits in both worlds. -/
theorem addBalance (a : Address) {value : U256}
    (hfits : (v.balance s).toNat + value.toNat < Word.range 256) :
    Lacks s amount (v.addBalance a value) (w.addBalance a value) := by
  have hcovered : amount.toNat ≤ (v.balance s).toNat := h.covered
  by_cases ha : a = s
  · rw [ha]
    refine ⟨?_, ?_, exists?_setAccount h.present s _⟩
    · rw [h.eq]
      unfold World.subBalance World.addBalance
      rw [modify_modify, modify_modify]
      apply modify_congr
      have hcomm : ((v.balance s).satSub amount).satAdd value =
          ((v.balance s).satAdd value).satSub amount := by
        apply Word.toNat_inj.1
        rw [Word.toNat_satSub, Word.toNat_satAdd_of_lt hfits,
          Word.toNat_satAdd_of_lt (by rw [Word.toNat_satSub]; omega), Word.toNat_satSub]
        omega
      exact congrArg (fun balance => { v.accountD s with balance }) hcomm
    · have hpaid := toNat_balance_addBalance hfits s
      exact Word.le_iff.2 (by omega)
  · refine ⟨?_, ?_, exists?_setAccount h.present a _⟩
    · rw [h.eq]
      exact modify_comm v (Ne.symm ha) _ _
    · have hsame : (v.addBalance a value).balance s = v.balance s :=
        congrArg Account.balance (accountD_modify_of_ne v _ (Ne.symm ha))
      rw [hsame]
      exact h.covered

/-- A payment of the account. -/
theorem pay (target : Address) {value : U256}
    (hvalue : amount.toNat + value.toNat ≤ (v.balance s).toNat) :
    Lacks s amount ((v.subBalance s value).addBalance target value)
      ((w.subBalance s value).addBalance target value) := by
  have hcovered : value ≤ v.balance s := Word.le_iff.2 (by omega)
  have hpaid := toNat_balance_subBalance hcovered s
  have hrange := (v.balance s).isLt
  rw [entry, if_pos rfl] at hpaid
  exact (h.subBalance hvalue).addBalance target (by omega)

/-- The amount comes back on top of a credit. -/
theorem addBalance_eq {credit credit' : U256}
    (hcredit : credit'.toNat = credit.toNat + amount.toNat) :
    w.addBalance s credit' = v.addBalance s credit := by
  have hcovered : amount.toNat ≤ (v.balance s).toNat := h.covered
  rw [h.eq]
  unfold World.subBalance World.addBalance
  rw [modify_modify]
  apply modify_congr
  have hsame : ((v.balance s).satSub amount).satAdd credit' = (v.balance s).satAdd credit := by
    apply Word.toNat_inj.1
    rw [Word.toNat_satAdd_eq_min, Word.toNat_satAdd_eq_min, Word.toNat_satSub, hcredit]
    omega
  exact congrArg (fun balance => { v.accountD s with balance }) hsame

end Lacks

/-- No program sees that an amount is lacking. -/
theorem Lacks.indistinct (s : Address) (amount : U256) (address : Address) :
    Indistinct address (Lacks s amount) where
  storage := fun h key => h.frame (fun account => account.slot key) (fun _ _ => rfl) address
  store := fun h _ _ refund => (h.modify address fun _ _ => rfl).addRefund refund
  log := fun h l => h.addLog l

/-! ## Calls and creations -/

namespace InPlace

variable {ctx : BlockContext} {m : Message} {amount : U256} {v w : World} {gas gas' : U64}
  {extra : Nat} {f : Frame World} (h : Lacks m.sender amount v w)
  (hvalue : amount.toNat + m.value.toNat ≤ (v.balance m.sender).toNat)
  (hgas : gas'.toNat = gas.toNat + extra) (hok : f.failed = false)

include h hvalue in
theorem lacks_callWorld (target : Address) :
    Lacks m.sender amount (callWorld m target v) (callWorld m target w) := by
  unfold callWorld
  rw [h.exists?_eq]
  by_cases hpresent : v.exists? target = true
  · rw [if_pos hpresent, if_pos hpresent]
    exact h.pay target hvalue
  · rw [if_neg hpresent, if_neg hpresent]
    exact (h.createAccount target).pay target (by rw [balance_createAccount]; exact hvalue)

include h hvalue hgas hok in
theorem call_surplus {target : Address} (hrun : call ctx m target v gas = .ok f) :
    ∃ g, call ctx m target w gas' = .ok g ∧ Ahead (Lacks m.sender amount) extra f g := by
  rw [call_eq] at hrun ⊢
  rw [h.exists?_eq]
  split at hrun
  · next hidle =>
    cases hrun
    rw [if_pos hidle]
    exact ⟨_, rfl, rfl, hgas, h⟩
  · next hidle =>
    rw [if_neg hidle]
    have hpaid := lacks_callWorld h hvalue target
    have hcode := hpaid.frame Account.code (fun _ _ => rfl) target
    exact settle_lockstep hrun
      (fun e he hsame => enter_lockstep (Lacks.indistinct m.sender amount target) hpaid hcode hgas
        (Or.inr (hsame.trans hok)) he)
      fun hfailed => by rw [hok] at hfailed; cases hfailed

include h hvalue in
theorem lacks_creationWorld (address : Address) :
    Lacks m.sender amount (creationWorld ctx m address v) (creationWorld ctx m address w) := by
  unfold creationWorld
  by_cases heip158 : ctx.rules.eip158 = true
  · rw [if_pos heip158, if_pos heip158]
    exact ((h.createAccount address).setNonce address 1).pay address
      (by rw [balance_setNonce, balance_createAccount]; exact hvalue)
  · rw [if_neg heip158, if_neg heip158]
    exact (h.createAccount address).pay address (by rw [balance_createAccount]; exact hvalue)

include h hgas hok in
/-- From Homestead on, a creation that ends well has paid its deposit. -/
theorem depositCode_surplus {address : Address} (hhomestead : ctx.rules.homestead = true)
    (hrun : depositCode ctx m address gas v = .ok f) :
    ∃ g, depositCode ctx m address gas' w = .ok g ∧ Ahead (Lacks m.sender amount) extra f g := by
  unfold depositCode at hrun ⊢
  split at hrun
  · cases hrun
    cases hok
  · next hfits =>
    obtain ⟨deposit, hdeposit, hpaid⟩ := exists_of_bind hrun
    rw [if_neg hfits, hdeposit]
    simp only [bind, Except.bind]
    cases hleft : gas.sub? deposit with
    | none =>
      -- Before Homestead this would be a success without code, and more gas would pay for it.
      rw [hleft] at hpaid
      cases hpaid
      cases hok
    | some left =>
      rw [hleft] at hpaid
      cases hpaid
      obtain ⟨left', hleft', hextra⟩ := Word.exists_sub?_of_add hgas hleft
      rw [hleft']
      exact ⟨_, rfl, rfl, hextra, h.setCode address m.data⟩

include h hvalue hgas hok in
theorem create_surplus {nonce : U64} (hhomestead : ctx.rules.homestead = true)
    (hrun : create ctx m nonce v gas = .ok f) :
    ∃ g, create ctx m nonce w gas' = .ok g ∧ Ahead (Lacks m.sender amount) extra f g := by
  have hnonce : ∀ a, w.nonce a = v.nonce a := h.frame Account.nonce fun _ _ => rfl
  have hcode : ∀ a, w.code a = v.code a := h.frame Account.code fun _ _ => rfl
  rw [create_eq] at hrun ⊢
  rw [hnonce, hcode]
  split at hrun
  · cases hrun
    cases hok
  · next hfree =>
    rw [if_neg hfree]
    exact settle_lockstep hrun
      (fun e he hsame => depositCode_surplus (lacks_creationWorld h hvalue _) hgas
        (hsame.trans hok) hhomestead he)
      fun hfailed => by rw [hok] at hfailed; cases hfailed

include h hvalue hgas hok in
/-- A call or creation that ends well goes the same way with more gas and a sender who has less. -/
theorem enact_surplus {nonce : U64} (hstart : m.recipient.isSome ∨ ctx.rules.homestead = true)
    (hrun : enact ctx m nonce v gas = .ok f) :
    ∃ g, enact ctx m nonce w gas' = .ok g ∧ Ahead (Lacks m.sender amount) extra f g := by
  unfold enact at hrun ⊢
  cases hrecipient : m.recipient with
  | none =>
    rw [hrecipient] at hrun hstart
    exact create_surplus h hvalue hgas hok (hstart.resolve_left fun hsome => nomatch hsome) hrun
  | some target =>
    rw [hrecipient] at hrun
    exact call_surplus h hvalue hgas hok hrun

end InPlace

/-! ## The message -/

/-- The message with another gas limit. -/
def Message.withGasLimit (m : Message) (limit : U64) : Message := { m with gasLimit := limit }

section

variable {ctx : BlockContext} {m : Message} {w : World} {pool : GasPool} {a a' : Admission}
  {limit : U64} (hle : m.gasLimit ≤ limit) (ha : Admitted ctx m w pool a)
  (ha' : Admitted ctx (m.withGasLimit limit) w pool a')

include hle ha ha'

/-- What the surplus costs. -/
theorem Admitted.toNat_gasCost_add :
    a'.gasCost.toNat = a.gasCost.toNat + (limit.toNat - m.gasLimit.toNat) * m.gasPrice.toNat := by
  have hle : m.gasLimit.toNat ≤ limit.toNat := hle
  have hcost' : a'.gasCost.toNat = limit.toNat * m.gasPrice.toNat := ha'.toNat_gasCost
  rw [hcost', ha.toNat_gasCost, ← Nat.add_mul, Nat.add_sub_cancel' hle]

/-- What the surplus costs is what the sender lacks. -/
theorem Admitted.lacks :
    Lacks m.sender (a'.gasCost.satSub a.gasCost) (a.world m w)
      (a'.world (m.withGasLimit limit) w) := by
  have hcost := toNat_gasCost_add hle ha ha'
  have hcovered : a'.gasCost.toNat ≤ (w.balance m.sender).toNat := ha'.gasCost_le
  have hbalance : (a.world m w).balance m.sender = (w.balance m.sender).satSub a.gasCost :=
    congrArg Account.balance Admission.accountD_world_self
  refine ⟨?_, ?_, ?_⟩
  · have hsame : (w.balance m.sender).satSub a'.gasCost =
        ((w.balance m.sender).satSub a.gasCost).satSub (a'.gasCost.satSub a.gasCost) := by
      apply Word.toNat_inj.1
      rw [Word.toNat_satSub, Word.toNat_satSub, Word.toNat_satSub, Word.toNat_satSub]
      omega
    unfold Admission.world subBalance setNonce
    rw [modify_modify, modify_modify, modify_modify]
    apply modify_congr
    exact congrArg (fun balance => { w.accountD m.sender with
      balance, nonce := (w.nonce m.sender).satAdd 1 }) hsame
  · rw [hbalance]
    apply Word.le_iff.2
    rw [Word.toNat_satSub, Word.toNat_satSub]
    omega
  · exact congrArg Option.isSome (account?_setAccount_self _ _ _)

/-- The gas due before execution does not depend on the limit, so the surplus goes to the call or
creation. -/
theorem Admitted.toNat_gas_add :
    (a'.gas (m.withGasLimit limit)).toNat =
      (a.gas m).toNat + (limit.toNat - m.gasLimit.toNat) := by
  have hle : m.gasLimit.toNat ≤ limit.toNat := hle
  have hintrinsic : a'.intrinsic = a.intrinsic :=
    Option.some.inj (ha'.intrinsic.symm.trans ha.intrinsic)
  have hfits : a.intrinsic.toNat ≤ m.gasLimit.toNat := ha.intrinsic_le
  have hgas : (a.gas m).toNat = m.gasLimit.toNat - a.intrinsic.toNat := rfl
  have hgas' : (a'.gas (m.withGasLimit limit)).toNat = limit.toNat - a'.intrinsic.toNat := rfl
  rw [hgas', hintrinsic, hgas]
  omega

/-- The sender can pay the value beside what the surplus costs. -/
theorem Admitted.surplus_add_value_le :
    (a'.gasCost.satSub a.gasCost).toNat + m.value.toNat ≤
      ((a.world m w).balance m.sender).toNat := by
  have hcost := toNat_gasCost_add hle ha ha'
  have hcovered : a'.gasCost.toNat ≤ (w.balance m.sender).toNat := ha'.gasCost_le
  have hvalue : m.value.toNat ≤ (w.balance m.sender).toNat - a'.gasCost.toNat := ha'.value_le
  have hbalance : (a.world m w).balance m.sender = (w.balance m.sender).satSub a.gasCost :=
    congrArg Account.balance Admission.accountD_world_self
  rw [hbalance, Word.toNat_satSub, Word.toNat_satSub]
  omega

/-- The pool gets the surplus back. -/
theorem Admitted.pool_add_eq {back back' : U64} (hback : back ≤ m.gasLimit)
    (hback' : back'.toNat = back.toNat + (limit.toNat - m.gasLimit.toNat)) :
    a'.pool.add back' = a.pool.add back := by
  have hle : m.gasLimit.toNat ≤ limit.toNat := hle
  have hback : back.toNat ≤ m.gasLimit.toNat := hback
  obtain ⟨hfits, hpool⟩ := GasPool.toNat_sub ha.pool
  obtain ⟨hfits', hpool'⟩ := GasPool.toNat_sub ha'.pool
  have hfits' : limit.toNat ≤ pool.gas.toNat := hfits'
  have hpool' : a'.pool.gas.toNat = pool.gas.toNat - limit.toNat := hpool'
  have hrange := pool.gas.isLt
  have hsame : (a'.pool.add back').gas = (a.pool.add back).gas := by
    apply Word.toNat_inj.1
    rw [GasPool.toNat_add (by omega), GasPool.toNat_add (by omega)]
    omega
  exact congrArg GasPool.mk hsame

end

/-- A message that ended well does so with a larger gas limit that it is admitted with, and leaves
the same result, the same world and the same pool. -/
theorem Settled.withGasLimit {ctx : BlockContext} {m : Message} {w : World} {pool : GasPool}
    {a a' : Admission} {f : Frame World} {x : Execution} (h : Settled ctx m w pool a f x)
    (hok : f.failed = false) {limit : U64} (hle : m.gasLimit ≤ limit)
    (hadmission : TwinLedger.admission ctx (m.withGasLimit limit) w pool = .ok a')
    (hstart : m.recipient.isSome ∨ ctx.rules.homestead = true) :
    ∃ g, Settled ctx (m.withGasLimit limit) w pool a' g x := by
  have ha' := admitted_of_admission hadmission
  have hlacks := Admitted.lacks hle h.admitted ha'
  obtain ⟨g, hg, hahead⟩ := InPlace.enact_surplus hlacks
    (Admitted.surplus_add_value_le hle h.admitted ha') (Admitted.toNat_gas_add hle h.admitted ha')
    hok hstart h.enact
  refine ⟨g, hadmission, hg, ?_⟩
  -- What comes back pays for what was bought on top, and all else is as before.
  have hlimit : limit.toNat = m.gasLimit.toNat + (limit.toNat - m.gasLimit.toNat) :=
    (Nat.add_sub_cancel' hle).symm
  have hback := hahead.toNat_gasBack hlimit h.gas_le hahead.store.refund_eq
  have hresult := hahead.result_eq hlimit h.gas_le hahead.store.refund_eq
  have hgas := hahead.gas_le hlimit h.gas_le
  have hrepaid : ((g.gasBack limit).widen.satMul m.gasPrice).toNat =
      ((f.gasBack m.gasLimit).widen.satMul m.gasPrice).toNat +
        (a'.gasCost.satSub a.gasCost).toNat := by
    have hcost := Admitted.toNat_gasCost_add hle h.admitted ha'
    have hprice : ((g.gasBack limit).widen.satMul m.gasPrice).toNat =
        (g.gasBack limit).toNat * m.gasPrice.toNat := ha'.toNat_price (g.gasBack_le hgas)
    rw [hprice, h.admitted.toNat_price (f.gasBack_le h.gas_le), hback, Nat.add_mul,
      Word.toNat_satSub]
    omega
  have hsettle := InPlace.settleGas_eq ctx a'.pool hgas (m := m.withGasLimit limit)
  rw [hsettle, h.execution_eq]
  have hworld := hahead.store.addBalance_eq hrepaid
  have hpool := Admitted.pool_add_eq hle h.admitted ha' (f.gasBack_le h.gas_le) hback
  simp only [Message.withGasLimit, hresult, hworld, hpool]

/-- The requirements are met by all gas limits between two that meet them. -/
theorem Requirement.met_withGasLimit {ctx : BlockContext} {m : Message} {w : World} {pool : GasPool}
    {between limit : U64} (hlow : m.gasLimit ≤ between) (hhigh : between ≤ limit)
    (hmet : ∀ q ∈ order, q.Met ctx m w pool)
    (hmet' : ∀ q ∈ order, q.Met ctx (m.withGasLimit limit) w pool) :
    ∀ q ∈ order, q.Met ctx (m.withGasLimit between) w pool := by
  have hcost : between.toNat * m.gasPrice.toNat ≤ limit.toNat * m.gasPrice.toNat :=
    Nat.mul_le_mul_right _ hhigh
  intro q hq
  have h := hmet q hq
  have h' := hmet' q hq
  cases q with
  | nonceReached => exact h
  | nonceUnused => exact h
  | nonceRises => exact h
  | priceInRange => exact Nat.lt_of_le_of_lt hcost h'
  | gasFunded => exact Nat.le_trans hcost h'
  | gasSuffices => exact Nat.le_trans h hlow
  | valueFunded => exact Nat.le_trans (Nat.add_le_add_right hcost _) h'
  | poolHolds => exact Nat.le_trans hhigh h'

/-- If a message runs well with its gas limit, and a larger limit meets the requirements too, then
it makes no difference which limit up to the larger one is taken: the result, the world and the pool
are the same. A search for the smallest limit that suffices may so go by halves. A creation before
Homestead is left out. -/
theorem larger_gasLimit_is_irrelevant {ctx : BlockContext} {m : Message} {w : World}
    {pool : GasPool} {x : Execution} {r : ExecutionResult} {limit : U64} (seat : Seat)
    (hx : Executors.stock.at seat ctx m w pool = .ok x) (hr : x.result = .ok r)
    (hok : r.failed = false)
    (hmet : ∀ q ∈ Requirement.order, q.Met ctx (m.withGasLimit limit) w pool)
    (hstart : m.recipient.isSome ∨ ctx.rules.homestead = true) :
    ∀ between, m.gasLimit ≤ between → between ≤ limit →
      Executors.stock.at seat ctx (m.withGasLimit between) w pool = .ok x := by
  intro between hlow hhigh
  obtain ⟨a, f, hsettled, rfl⟩ := Settled.of_apply hx hr
  -- The limit between the two is admitted, and then it is a larger limit like any other.
  have hadmitted := (admission_isOk_iff ctx m w pool).1 ⟨a, hsettled.admission⟩
  obtain ⟨a', hadmission⟩ := (admission_isOk_iff ctx (m.withGasLimit between) w pool).2
    (Requirement.met_withGasLimit hlow hhigh hadmitted hmet)
  obtain ⟨g, hsettled'⟩ := hsettled.withGasLimit hok hlow hadmission hstart
  rw [Executors.stock_at]
  exact InPlace.apply_eq_ok_iff.2 (Or.inr ⟨a', g, hsettled'⟩)

/-- A call that goes well and earns a refund, with more gas than it needs and with more than
that. -/
theorem larger_gasLimit_is_irrelevant_refund :
    ∃ x r, Executors.stock.at .alternate (sampleContext 19) (sampleMessage 17 30000) sampleWorld
        ⟨100000⟩ = .ok x ∧ x.result = .ok r ∧ r.failed = false ∧ x.world.refund ≠ 0 ∧
      Executors.stock.at .alternate (sampleContext 19) (sampleMessage 17 60000) sampleWorld
        ⟨100000⟩ = .ok x := by
  have hanswer : (Executors.stock.at .alternate (sampleContext 19) (sampleMessage 17 30000)
      sampleWorld ⟨100000⟩).toOption.any (fun x => (x.result.toOption.any fun r => !r.failed) &&
        x.world.refund != 0) = true := by decide +kernel
  obtain ⟨x, hx, hrun⟩ := exists_of_any hanswer
  obtain ⟨hresult, hrefund⟩ := Bool.and_eq_true_iff.1 hrun
  obtain ⟨r, hr, hok⟩ := exists_of_any hresult
  have hok' : r.failed = false := by simpa using hok
  have hmet : ∀ q ∈ Requirement.order, q.Met (sampleContext 19)
      ((sampleMessage 17 30000).withGasLimit 90000) sampleWorld ⟨100000⟩ := by decide +kernel
  exact ⟨x, r, hx, hr, hok', bne_iff_ne.1 hrefund,
    larger_gasLimit_is_irrelevant .alternate hx hr hok' hmet (Or.inl rfl) 60000 (by decide)
      (by decide)⟩

/-- Before Homestead the limit matters: a creation that cannot pay the deposit gets no code, and
more gas would pay it. -/
example :
    let ctx : BlockContext := { sampleContext 19 with rules := {} }
    let m : Message := { sampleMessage 17 21100 with recipient := none, data := [0] }
    let returned := fun limit => (InPlace.apply ctx (m.withGasLimit limit) sampleWorld
      ⟨100000⟩).toOption.bind fun x => x.result.toOption.map (·.returnData)
    returned 21100 = some [] ∧ returned 21300 = some [0] := by decide +kernel

end TwinLedger
