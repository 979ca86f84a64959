import TwinLedger.Proofs.Execution.Admission

/-!
# What is asked of a message

A message has to meet eight requirements to be included, and they are asked for in a fixed order.
Each of them is said here on its own and in natural numbers, as a sender would check it, with the
error that answers a message which does not meet it. The first one that is not met decides:

> `refusal?_eq`: the checks of an executor (`admission`) end in the error of the first requirement
> that is not met, and in none if all are met.

The executors calculate in words and stop at the first failure, so that a product is only formed
once it is known to fit, and a difference once it is known to be covered. Nothing of the kind is in
the requirements: each speaks about the message, the world and the pool alone.
-/

namespace TwinLedger

namespace Message

/-- The price of the whole gas limit. -/
def gasCost (m : Message) : Nat := m.gasLimit.toNat * m.gasPrice.toNat

/-- The gas due before anything is executed. -/
def intrinsicGas (m : Message) (homestead : Bool) : Nat :=
  let zeros := m.data.count 0
  let base := if m.isCreation && homestead then Gas.creation else Gas.transaction
  base + Gas.nonZeroByte * (m.data.length - zeros) + Gas.zeroByte * zeros

theorem intrinsic?_eq (m : Message) (homestead : Bool) :
    Gas.intrinsic? m.data m.isCreation homestead = Word.ofNat? (m.intrinsicGas homestead) := rfl

end Message

theorem Admitted.toNat_intrinsic {ctx : BlockContext} {m : Message} {w : World} {pool : GasPool}
    {a : Admission} (h : Admitted ctx m w pool a) :
    a.intrinsic.toNat = m.intrinsicGas ctx.rules.homestead := Word.ofNat?_eq_some_iff.1 h.intrinsic

/-- What is asked of a message. -/
inductive Requirement where
  /-- The account has come up to the nonce. -/
  | nonceReached
  /-- The account has not passed the nonce. -/
  | nonceUnused
  /-- The nonce of the account can rise. -/
  | nonceRises
  /-- The price of the gas limit is a 256-bit number. -/
  | priceInRange
  /-- The sender can pay the price of the gas limit. -/
  | gasFunded
  /-- The gas limit covers the gas due before execution. -/
  | gasSuffices
  /-- The sender can pay the value beside the gas. -/
  | valueFunded
  /-- The pool holds the gas limit. -/
  | poolHolds
  deriving DecidableEq

namespace Requirement

/-- The requirements in the order in which they are asked for. -/
def order : List Requirement :=
  [.nonceReached, .nonceUnused, .nonceRises, .priceInRange, .gasFunded, .gasSuffices, .valueFunded,
    .poolHolds]

variable (ctx : BlockContext) (m : Message) (w : World) (pool : GasPool)

/-- Whether the message meets the requirement. -/
def Met : Requirement → Prop
  | .nonceReached => m.nonce ≤ w.nonce m.sender
  | .nonceUnused => w.nonce m.sender ≤ m.nonce
  | .nonceRises => w.nonce m.sender ≠ .max
  | .priceInRange => m.gasCost < Word.range 256
  | .gasFunded => m.gasCost ≤ (w.balance m.sender).toNat
  | .gasSuffices => m.intrinsicGas ctx.rules.homestead ≤ m.gasLimit.toNat
  | .valueFunded => m.gasCost + m.value.toNat ≤ (w.balance m.sender).toNat
  | .poolHolds => m.gasLimit ≤ pool.gas

instance (r : Requirement) : Decidable (r.Met ctx m w pool) :=
  match r with
  | .nonceReached => inferInstanceAs (Decidable (m.nonce ≤ w.nonce m.sender))
  | .nonceUnused => inferInstanceAs (Decidable (w.nonce m.sender ≤ m.nonce))
  | .nonceRises => inferInstanceAs (Decidable (w.nonce m.sender ≠ .max))
  | .priceInRange => inferInstanceAs (Decidable (m.gasCost < Word.range 256))
  | .gasFunded => inferInstanceAs (Decidable (m.gasCost ≤ (w.balance m.sender).toNat))
  | .gasSuffices =>
    inferInstanceAs (Decidable (m.intrinsicGas ctx.rules.homestead ≤ m.gasLimit.toNat))
  | .valueFunded =>
    inferInstanceAs (Decidable (m.gasCost + m.value.toNat ≤ (w.balance m.sender).toNat))
  | .poolHolds => inferInstanceAs (Decidable (m.gasLimit ≤ pool.gas))

/-- The answer to a message that does not meet the requirement. Gas due beyond the range of a word
is covered by no gas limit, and has no word to be named with. -/
def error : Requirement → ExecutionError
  | .nonceReached => .nonceTooHigh m.sender m.nonce (w.nonce m.sender)
  | .nonceUnused => .nonceTooLow m.sender m.nonce (w.nonce m.sender)
  | .nonceRises => .nonceMax m.sender (w.nonce m.sender)
  | .priceInRange => .gasOverflow
  | .gasFunded => .insufficientBalanceForGas m.sender (w.balance m.sender) (.clamp m.gasCost)
  | .gasSuffices =>
    match Word.ofNat? (m.intrinsicGas ctx.rules.homestead) with
    | none => .gasOverflow
    | some due => .intrinsicGas m.gasLimit due
  | .valueFunded =>
    .insufficientBalanceForTransfer m.sender ((w.balance m.sender).satSub (.clamp m.gasCost))
      m.value
  | .poolHolds => .gasLimitReached ⟨pool.gas, m.gasLimit⟩

/-- The answer to the first of some requirements that is not met. -/
def firstError (rs : List Requirement) : Option ExecutionError :=
  (rs.find? fun r => !decide (r.Met ctx m w pool)).map fun r => r.error ctx m w pool

/-- The requirement is the first that the message does not meet. -/
def FirstMissed (r : Requirement) : Prop :=
  ∃ before after, order = before ++ r :: after ∧ (∀ q ∈ before, q.Met ctx m w pool) ∧
    ¬ r.Met ctx m w pool

theorem firstError_cons (r : Requirement) (rest : List Requirement) :
    firstError ctx m w pool (r :: rest) =
      if r.Met ctx m w pool then firstError ctx m w pool rest
      else some (r.error ctx m w pool) := by
  unfold firstError
  rw [List.find?_cons]
  by_cases hmet : r.Met ctx m w pool
  · rw [if_pos hmet, decide_eq_true hmet]
    rfl
  · rw [if_neg hmet, decide_eq_false hmet]
    rfl

end Requirement

open Requirement (firstError firstError_cons)

section

variable (ctx : BlockContext) (m : Message) (w : World) (pool : GasPool)

/-- The error that a message is refused with, if it is. -/
def refusal? : Option ExecutionError := firstError ctx m w pool Requirement.order

variable {ctx m w pool}

/-- A message is not refused if it meets all requirements. -/
theorem refusal?_eq_none_iff :
    refusal? ctx m w pool = none ↔ ∀ r ∈ Requirement.order, r.Met ctx m w pool := by
  unfold refusal? firstError
  rw [Option.map_eq_none_iff, List.find?_eq_none]
  simp

/-- A message is refused for the first requirement that it does not meet. -/
theorem refusal?_eq_some_iff {e : ExecutionError} :
    refusal? ctx m w pool = some e ↔
      ∃ r, Requirement.FirstMissed ctx m w pool r ∧ r.error ctx m w pool = e := by
  unfold refusal? firstError Requirement.FirstMissed
  rw [Option.map_eq_some_iff]
  simp only [List.find?_eq_some_iff_append]
  constructor
  · rintro ⟨r, ⟨hmissed, before, after, horder, hbefore⟩, he⟩
    exact ⟨r, ⟨before, after, horder, by simpa using hbefore, by simpa using hmissed⟩, he⟩
  · rintro ⟨r, ⟨before, after, horder, hbefore, hmissed⟩, he⟩
    exact ⟨r, ⟨by simpa using hmissed, before, after, horder, by simpa using hbefore⟩, he⟩

/-- The error of some checks, if one of them fails. -/
def errorOf {α : Type} : Except ExecutionError α → Option ExecutionError
  | .error e => some e
  | .ok _ => none

/-- A check that fails where a requirement is not met stands for it, if those behind it stand for
the requirements behind it. -/
theorem firstError_cons_eq {r : Requirement} {rest : List Requirement} {c : Prop} [Decidable c]
    {e : ExecutionError} {next : Except ExecutionError Admission}
    (hcheck : c ↔ ¬ r.Met ctx m w pool) (herror : r.error ctx m w pool = e)
    (hnext : ¬ c → firstError ctx m w pool rest = errorOf next) :
    firstError ctx m w pool (r :: rest) = errorOf (if c then .error e else next) := by
  rw [firstError_cons]
  by_cases hc : c
  · rw [if_neg (hcheck.1 hc), if_pos hc, herror]
    rfl
  · rw [if_pos (Decidable.not_not.1 fun h => hc (hcheck.2 h)), if_neg hc, hnext hc]

variable (ctx m w pool)

/-- The checks end in the error of the first requirement that is not met. -/
theorem refusal?_eq : refusal? ctx m w pool = errorOf (admission ctx m w pool) := by
  unfold refusal? Requirement.order admission
  refine firstError_cons_eq Nat.not_le.symm rfl fun _ => ?_
  refine firstError_cons_eq Nat.not_le.symm rfl fun _ => ?_
  refine firstError_cons_eq Decidable.not_not.symm rfl fun _ => ?_
  -- From here on the checks speak of the price as a word, and then of the gas due as one.
  have hproduct : m.gasLimit.widen.mul? m.gasPrice = Word.ofNat? m.gasCost := rfl
  rw [hproduct, firstError_cons]
  cases hcost : (Word.ofNat? m.gasCost : Option U256) with
  | none =>
    have hunmet : ¬ Requirement.priceInRange.Met ctx m w pool :=
      Nat.not_lt.2 (Word.ofNat?_eq_none_iff.1 hcost)
    rw [if_neg hunmet]
    rfl
  | some cost =>
    have hcost : cost.toNat = m.gasCost := Word.ofNat?_eq_some_iff.1 hcost
    have hclamp : Word.clamp m.gasCost = cost := by rw [← hcost, Word.clamp_toNat]
    have hinRange : Requirement.priceInRange.Met ctx m w pool := by
      unfold Requirement.Met
      rw [← hcost]
      exact cost.isLt
    rw [if_pos hinRange]
    refine firstError_cons_eq ?_ ?_ fun hfunded => ?_
    · rw [Word.lt_iff, hcost]
      exact Nat.not_le.symm
    · rw [Requirement.error, hclamp]
    rw [Message.intrinsic?_eq]
    cases hdue : (Word.ofNat? (m.intrinsicGas ctx.rules.homestead) : Option U64) with
    | none =>
      have hunmet : ¬ Requirement.gasSuffices.Met ctx m w pool :=
        Nat.not_le.2 (Nat.lt_of_lt_of_le m.gasLimit.isLt (Word.ofNat?_eq_none_iff.1 hdue))
      rw [firstError_cons, if_neg hunmet, Requirement.error, hdue]
      rfl
    | some due =>
      have hdue' : due.toNat = m.intrinsicGas ctx.rules.homestead :=
        Word.ofNat?_eq_some_iff.1 hdue
      refine firstError_cons_eq ?_ ?_ fun _ => ?_
      · rw [Word.lt_iff, hdue']
        exact Nat.not_le.symm
      · rw [Requirement.error, hdue]
      refine firstError_cons_eq ?_ ?_ fun _ => ?_
      · have hcovered : cost.toNat ≤ (w.balance m.sender).toNat := Nat.not_lt.1 hfunded
        unfold Requirement.Met
        rw [Word.lt_iff, Word.toNat_satSub, ← hcost]
        omega
      · rw [Requirement.error, hclamp]
      rw [GasPool.sub, firstError_cons]
      by_cases hless : pool.gas < m.gasLimit
      · have hunmet : ¬ Requirement.poolHolds.Met ctx m w pool := Nat.not_le.2 hless
        rw [if_neg hunmet, if_pos hless]
        rfl
      · have hmet : Requirement.poolHolds.Met ctx m w pool := Nat.not_lt.1 hless
        rw [if_pos hmet, if_neg hless]
        rfl

/-- The checks pass if and only if all requirements are met. -/
theorem admission_isOk_iff :
    (∃ a, admission ctx m w pool = .ok a) ↔ ∀ r ∈ Requirement.order, r.Met ctx m w pool := by
  rw [← refusal?_eq_none_iff, refusal?_eq]
  cases admission ctx m w pool with
  | error e =>
    constructor
    · rintro ⟨a, ha⟩
      cases ha
    · intro hnone
      cases hnone
  | ok a => exact ⟨fun _ => rfl, fun _ => ⟨a, rfl⟩⟩

end

end TwinLedger
