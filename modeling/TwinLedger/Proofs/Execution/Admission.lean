import TwinLedger.Execution.Buffered
import TwinLedger.Execution.InPlace
import TwinLedger.Proofs.World.Writes

/-!
# Which messages are included

Both executors check a message before they write anything, each in its own style: one compares and
subtracts behind its own checks, the other subtracts where it can. `admission` is the rule that
both follow, as one list of checks of which the first to fail is the error. A message that passes
is described by its `Admission`, and what an executor does with it is then the same sentence for
both:

> pay for the gas and raise the nonce (`Admission.world`), enact the call or creation with the
> gas that is left after the intrinsic gas, and settle.

`InPlace.apply_eq` and `Buffered.apply_eq` say this of the two executors, and no later proof looks
at their checks again.
-/

namespace TwinLedger

/-- What is known of a message that passed all checks: the price of its gas, the gas due before
execution, and the pool after the purchase. -/
structure Admission where
  gasCost : U256
  intrinsic : U64
  pool : GasPool

/-- The checks in their order. -/
def admission (ctx : BlockContext) (m : Message) (w : World) (pool : GasPool) :
    Except ExecutionError Admission :=
  let nonce := w.nonce m.sender
  let balance := w.balance m.sender
  if nonce < m.nonce then .error (.nonceTooHigh m.sender m.nonce nonce)
  else if m.nonce < nonce then .error (.nonceTooLow m.sender m.nonce nonce)
  else if nonce = .max then .error (.nonceMax m.sender nonce)
  else
    match m.gasLimit.widen.mul? m.gasPrice with
    | none => .error .gasOverflow
    | some gasCost =>
      if balance < gasCost then .error (.insufficientBalanceForGas m.sender balance gasCost)
      else
        match Gas.intrinsic? m.data m.isCreation ctx.rules.homestead with
        | none => .error .gasOverflow
        | some intrinsic =>
          if m.gasLimit < intrinsic then .error (.intrinsicGas m.gasLimit intrinsic)
          else if balance.satSub gasCost < m.value then
            .error (.insufficientBalanceForTransfer m.sender (balance.satSub gasCost) m.value)
          else
            match pool.sub m.gasLimit with
            | .error shortage => .error (.gasLimitReached shortage)
            | .ok left => .ok ⟨gasCost, intrinsic, left⟩

namespace Admission

/-- The gas left for the call or creation. -/
def gas (a : Admission) (m : Message) : U64 := m.gasLimit.satSub a.intrinsic

/-- The world in which the call or creation starts. -/
def world (a : Admission) (m : Message) (w : World) : World :=
  (w.subBalance m.sender a.gasCost).setNonce m.sender ((w.nonce m.sender).satAdd 1)

end Admission

/-- All that the checks establish. -/
structure Admitted (ctx : BlockContext) (m : Message) (w : World) (pool : GasPool)
    (a : Admission) : Prop where
  nonce : w.nonce m.sender = m.nonce
  nonce_ne_max : w.nonce m.sender ≠ .max
  gasCost : m.gasLimit.widen.mul? m.gasPrice = some a.gasCost
  gasCost_le : a.gasCost ≤ w.balance m.sender
  intrinsic : Gas.intrinsic? m.data m.isCreation ctx.rules.homestead = some a.intrinsic
  intrinsic_le : a.intrinsic ≤ m.gasLimit
  value_le : m.value ≤ (w.balance m.sender).satSub a.gasCost
  pool : pool.sub m.gasLimit = .ok a.pool

theorem admitted_of_admission {ctx : BlockContext} {m : Message} {w : World} {pool : GasPool}
    {a : Admission} (h : admission ctx m w pool = .ok a) : Admitted ctx m w pool a := by
  unfold admission at h
  simp only at h
  split at h
  · cases h
  · next hhigh =>
    split at h
    · cases h
    · next hlow =>
      split at h
      · cases h
      · next hmax =>
        split at h
        · cases h
        · next gasCost hcost =>
          split at h
          · cases h
          · next hbalance =>
            split at h
            · cases h
            · next intrinsic hintrinsic =>
              split at h
              · cases h
              · next hgas =>
                split at h
                · cases h
                · next hvalue =>
                  split at h
                  · cases h
                  · next left hpool =>
                    cases h
                    have hnonce : w.nonce m.sender = m.nonce :=
                      Word.toNat_inj.1 (Nat.le_antisymm (Nat.not_lt.1 hlow) (Nat.not_lt.1 hhigh))
                    exact ⟨hnonce, hmax, hcost, Nat.not_lt.1 hbalance, hintrinsic,
                      Nat.not_lt.1 hgas, Nat.not_lt.1 hvalue, hpool⟩

namespace Admitted

variable {ctx : BlockContext} {m : Message} {w : World} {pool : GasPool} {a : Admission}

theorem toNat_gasCost (h : Admitted ctx m w pool a) :
    a.gasCost.toNat = m.gasLimit.toNat * m.gasPrice.toNat := Word.ofNat?_eq_some_iff.1 h.gasCost

/-- What any part of the gas limit costs is a word. -/
theorem toNat_price (h : Admitted ctx m w pool a) {gas : U64} (hgas : gas ≤ m.gasLimit) :
    (gas.widen.satMul m.gasPrice).toNat = gas.toNat * m.gasPrice.toNat := by
  have hle : gas.toNat * m.gasPrice.toNat ≤ a.gasCost.toNat := by
    rw [h.toNat_gasCost]
    exact Nat.mul_le_mul_right _ hgas
  exact Word.toNat_satMul_of_lt (Nat.lt_of_le_of_lt hle a.gasCost.isLt)

end Admitted

/-! ## The checks of the two executors -/

namespace InPlace

/-- Buying gas is making the checks; its subtractions are all in range, and where a check fails
nothing has been written. -/
theorem buyGas_eq (ctx : BlockContext) (m : Message) (w : World) (pool : GasPool) :
    buyGas ctx m w pool =
      .ok (match admission ctx m w pool with
        | .error e => ⟨.error e, w, pool⟩
        | .ok a => ⟨.ok (a.gas m), w.subBalance m.sender a.gasCost, a.pool⟩) := by
  unfold buyGas admission
  simp only
  by_cases hhigh : w.nonce m.sender < m.nonce
  · rw [if_pos hhigh, if_pos hhigh]
  rw [if_neg hhigh, if_neg hhigh]
  by_cases hlow : m.nonce < w.nonce m.sender
  · rw [if_pos hlow, if_pos hlow]
  rw [if_neg hlow, if_neg hlow]
  by_cases hmax : w.nonce m.sender = .max
  · rw [if_pos hmax, if_pos hmax]
  rw [if_neg hmax, if_neg hmax]
  cases m.gasLimit.widen.mul? m.gasPrice with
  | none => rfl
  | some gasCost =>
    by_cases hbalance : w.balance m.sender < gasCost
    · simp only [if_pos hbalance]
    simp only [if_neg hbalance, Word.sub_of_le (Nat.not_lt.1 hbalance)]
    cases Gas.intrinsic? m.data m.isCreation ctx.rules.homestead with
    | none => rfl
    | some intrinsic =>
      by_cases hgas : m.gasLimit < intrinsic
      · simp only [if_pos hgas]
      simp only [if_neg hgas, Word.sub_of_le (Nat.not_lt.1 hgas), bind, Except.bind]
      by_cases hvalue : (w.balance m.sender).satSub gasCost < m.value
      · simp only [if_pos hvalue]
      simp only [if_neg hvalue]
      cases pool.sub m.gasLimit with
      | error shortage => rfl
      | ok left => rfl

/-- The call or the creation that a message asks for. -/
def enact (ctx : BlockContext) (m : Message) (nonce : U64) (w : World) (gas : U64) :
    Checked (Frame World) :=
  match m.recipient with
  | some target => call ctx m target w gas
  | none => create ctx m nonce w gas

/-- A message that passes is enacted in the world after the purchase, and then settled. -/
theorem apply_eq (ctx : BlockContext) (m : Message) (w : World) (pool : GasPool) :
    apply ctx m w pool =
      match admission ctx m w pool with
      | .error e => .ok ⟨.error e, w, pool⟩
      | .ok a =>
        enact ctx m (w.nonce m.sender) (a.world m w) (a.gas m) >>= settleGas ctx m a.pool := by
  unfold apply
  rw [buyGas_eq]
  cases hadmission : admission ctx m w pool with
  | error e => rfl
  | ok a =>
    have hnonce : (w.subBalance m.sender a.gasCost).nonce m.sender = w.nonce m.sender := by
      unfold World.nonce World.subBalance World.modify
      rw [World.accountD_setAccount_self]
    have hnext := Word.add_one_of_ne_max (admitted_of_admission hadmission).nonce_ne_max
    simp only [bind, Except.bind, hnonce, hnext, enact]
    cases m.recipient with
    | none => rfl
    | some target => rfl

end InPlace

namespace Buffered

/-- The pre-charge makes the same checks and then also raises the nonce; where a check fails nothing
has been written. -/
theorem preCharge_eq (ctx : BlockContext) (m : Message) (w : World) (pool : GasPool) :
    preCharge ctx m w pool =
      .ok (match admission ctx m w pool with
        | .error e => ⟨.error e, w, pool⟩
        | .ok a => ⟨.ok ⟨a.intrinsic, w.nonce m.sender⟩, a.world m w, a.pool⟩) := by
  have hnonce : ((w.account? m.sender).getD {}).nonce = w.nonce m.sender := rfl
  have hbalance : ((w.account? m.sender).getD {}).balance = w.balance m.sender := rfl
  unfold preCharge admission
  simp only [hnonce, hbalance, Word.mul?_comm m.gasPrice]
  -- The one comparison of the nonces stands for the two that the rule makes.
  rcases Nat.lt_trichotomy (w.nonce m.sender).toNat m.nonce.toNat with hlt | heq | hgt
  · have hhigh : w.nonce m.sender < m.nonce := hlt
    rw [Nat.compare_eq_lt.2 hlt, if_pos hhigh]
  · have hhigh : ¬ w.nonce m.sender < m.nonce := fun h => Nat.ne_of_lt h heq
    have hlow : ¬ m.nonce < w.nonce m.sender := fun h => Nat.ne_of_lt h heq.symm
    rw [Nat.compare_eq_eq.2 heq, if_neg hhigh, if_neg hlow]
    by_cases hmax : w.nonce m.sender = .max
    · simp only [if_pos hmax]
    simp only [if_neg hmax, Word.add_one_of_ne_max hmax]
    cases m.gasLimit.widen.mul? m.gasPrice with
    | none => rfl
    | some gasCost =>
      by_cases hcost : w.balance m.sender < gasCost
      · have hsub : (w.balance m.sender).sub? gasCost = none := Word.sub?_eq_none_iff.2 hcost
        simp only [if_pos hcost, hsub]
      have hsub : (w.balance m.sender).sub? gasCost = some ((w.balance m.sender).satSub gasCost) :=
        if_pos (Nat.not_lt.1 hcost)
      simp only [if_neg hcost, hsub]
      have hcreation : m.recipient.isNone = m.isCreation := rfl
      rw [hcreation]
      cases Gas.intrinsic? m.data m.isCreation ctx.rules.homestead with
      | none => rfl
      | some intrinsic =>
        by_cases hgas : m.gasLimit < intrinsic
        · simp only [if_pos hgas]
        simp only [if_neg hgas]
        by_cases hvalue : (w.balance m.sender).satSub gasCost < m.value
        · simp only [if_pos hvalue]
        simp only [if_neg hvalue]
        cases pool.sub m.gasLimit with
        | error shortage => rfl
        | ok left => rfl
  · have hhigh : ¬ w.nonce m.sender < m.nonce := Nat.not_lt.2 (Nat.le_of_lt hgt)
    have hlow : m.nonce < w.nonce m.sender := hgt
    rw [Nat.compare_eq_gt.2 hgt, if_neg hhigh, if_pos hlow]

/-- The call or the creation that a message asks for. -/
def enact (ctx : BlockContext) (m : Message) (nonce : U64) (w : World) (gas : U64) :
    Checked (Frame WriteSet) :=
  match m.recipient with
  | some target => call ctx m target w gas
  | none => create ctx m nonce w gas

/-- A message that passes is enacted against a write set over the world after the purchase; the
write set is committed or dropped, and then the message is settled. -/
theorem apply_eq (ctx : BlockContext) (m : Message) (w : World) (pool : GasPool) :
    apply ctx m w pool =
      match admission ctx m w pool with
      | .error e => .ok ⟨.error e, w, pool⟩
      | .ok a =>
        enact ctx m (w.nonce m.sender) (a.world m w) (a.gas m) >>= fun frame =>
          charge ctx m a.pool (commitFrame (a.world m w) frame) := by
  unfold apply
  rw [preCharge_eq]
  cases hadmission : admission ctx m w pool with
  | error e => rfl
  | ok a =>
    have hgas := Word.sub_of_le (admitted_of_admission hadmission).intrinsic_le
    simp only [bind, Except.bind, hgas, enact]
    cases m.recipient with
    | none => rfl
    | some target => rfl

end Buffered

end TwinLedger
