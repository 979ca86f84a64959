import TwinLedger.Proofs.Execution.Effects

/-!
# What a message comes to

A message that is not included leaves world and pool as they were. One that is included pays for
its gas, raises the nonce of the sender, is enacted, gets gas back and pays the fees. The gas that
comes back is what the call or creation has left and a refund, which takes at most half off what was
spent (`Frame.gasBack`).

> `apply_eq_ok_iff`: a message is refused by the checks, or it is admitted, enacted and settled
> (`Settled`).

`apply_cases` takes any run of a message apart into the pieces that most later proofs need
(`Included`): what was enacted, the gas that came back and the gas that was used. Nothing later
looks into the executors again.
-/

namespace TwinLedger

/-! ## Settlement -/

namespace Frame

/-- The gas that a frame gives back of a gas limit: the gas left, and the refund, which takes at
most half off what was spent. -/
def gasBack (f : Frame World) (limit : U64) : U64 :=
  f.gas.satAdd (((limit.satSub f.gas).div Gas.refundQuotient).min f.store.refund)

/-- What a message with the given gas limit comes to, if its call or creation ends so. -/
def result (f : Frame World) (limit : U64) : ExecutionResult :=
  ⟨f.output, limit.satSub (f.gasBack limit), f.failed⟩

variable {f : Frame World} {limit : U64}

theorem toNat_gasBack (h : f.gas ≤ limit) :
    (f.gasBack limit).toNat =
      f.gas.toNat + min ((limit.toNat - f.gas.toNat) / 2) f.store.refund.toNat := by
  have hle : f.gas.toNat ≤ limit.toNat := h
  have hlimit := limit.isLt
  have hrefund : (((limit.satSub f.gas).div Gas.refundQuotient).min f.store.refund).toNat =
      min ((limit.toNat - f.gas.toNat) / 2) f.store.refund.toNat := Word.toNat_min _ _
  rw [gasBack, Word.toNat_satAdd_of_lt (by omega), hrefund]

theorem gasBack_le (h : f.gas ≤ limit) : f.gasBack limit ≤ limit := by
  have hle : f.gas.toNat ≤ limit.toNat := h
  have hback := toNat_gasBack h
  exact Word.le_iff.2 (by omega)

/-- The gas limit is split into gas used and gas given back. -/
theorem gasUsed_add_gasBack (h : f.gas ≤ limit) :
    (f.result limit).gasUsed.toNat + (f.gasBack limit).toNat = limit.toNat := by
  have hle : (f.gasBack limit).toNat ≤ limit.toNat := gasBack_le h
  rw [result, Word.toNat_satSub]
  omega

end Frame

/-- Settling gives back what the frame has not used, and pays for the rest of the gas limit. -/
theorem InPlace.settleGas_eq (ctx : BlockContext) {m : Message} (pool : GasPool) {f : Frame World}
    (hgas : f.gas ≤ m.gasLimit) :
    settleGas ctx m pool f =
      .ok ⟨.ok (f.result m.gasLimit),
        (f.store.addBalance m.sender
          ((f.gasBack m.gasLimit).widen.satMul m.gasPrice)).addBalance ctx.coinbase
            ((f.result m.gasLimit).gasUsed.widen.satMul m.gasPrice),
        pool.add (f.gasBack m.gasLimit)⟩ := by
  have hback := f.toNat_gasBack hgas
  have hadd : f.gas.add (((m.gasLimit.satSub f.gas).div Gas.refundQuotient).min f.store.refund) =
      .ok (f.gasBack m.gasLimit) := by
    apply Word.checked_eq_ok_iff.2
    rw [hback, Word.toNat_min]
    rfl
  unfold settleGas
  simp only [Word.sub_of_le hgas, bind, Except.bind, hadd, Word.sub_of_le (f.gasBack_le hgas)]
  rfl

/-! ## Messages -/

namespace Admission

variable {a : Admission} {m : Message} {w : World}

/-- Who is not the sender has nothing to do with the purchase. -/
theorem accountD_world_of_ne {b : Address} (h : b ≠ m.sender) :
    (a.world m w).accountD b = w.accountD b :=
  (World.accountD_modify_of_ne _ _ h).trans (World.accountD_modify_of_ne _ _ h)

/-- The sender has paid for the gas and counted the message. -/
theorem accountD_world_self :
    (a.world m w).accountD m.sender =
      { w.accountD m.sender with
        balance := (w.balance m.sender).satSub a.gasCost
        nonce := (w.nonce m.sender).satAdd 1 } := by
  unfold world
  rw [World.setNonce, World.accountD_modify_self, World.subBalance, World.accountD_modify_self]
  rfl

/-- Beside balance and nonce the purchase changes nothing. -/
theorem world_frame {α : Type} (field : Account → α)
    (hfield : ∀ account balance nonce, field { account with balance, nonce } = field account)
    (b : Address) : field ((a.world m w).accountD b) = field (w.accountD b) := by
  by_cases hb : b = m.sender
  · rw [hb, accountD_world_self]
    exact hfield _ _ _
  · rw [accountD_world_of_ne hb]

end Admission

/-- A message that was included: it was admitted, the world after it was enacted is given, its gas
limit was split into gas used and gas left, and these were settled. What it logged took gas, and
what failed left nothing. -/
structure Included (ctx : BlockContext) (m : Message) (w : World) (pool : GasPool) (a : Admission)
    (v : World) (left : U64) (r : ExecutionResult) (x : Execution) : Prop where
  admitted : Admitted ctx m w pool a
  enacted : Enacted ctx m (w.nonce m.sender) (a.world m w) v
  gas : r.gasUsed.toNat + left.toNat = m.gasLimit.toNat
  intrinsic_le : a.intrinsic.toNat ≤ 2 * r.gasUsed.toNat
  logs_le : v.logs.length ≤ w.logs.length + r.gasUsed.toNat
  undone : r.failed → v = a.world m w
  result : x.result = .ok r
  world : x.world =
    (v.addBalance m.sender (left.widen.satMul m.gasPrice)).addBalance ctx.coinbase
      (r.gasUsed.widen.satMul m.gasPrice)
  pool : x.pool = a.pool.add left

/-- Once it is enacted, a message changes balances only. -/
theorem Included.world_frame {ctx : BlockContext} {m : Message} {w v : World} {pool : GasPool}
    {a : Admission} {left : U64} {r : ExecutionResult} {x : Execution} {α : Type}
    (h : Included ctx m w pool a v left r x) (field : Account → α)
    (hfield : ∀ account balance, field { account with balance } = field account) (b : Address) :
    field (x.world.accountD b) = field (v.accountD b) := by
  rw [h.world]
  exact (World.setAccount_frame field (hfield _ _) b).trans
    (World.setAccount_frame field (hfield _ _) b)

/-- No call and no creation gives more gas back than it was given, and that is part of the gas
limit. -/
theorem InPlace.gas_le_of_enact {ctx : BlockContext} {m : Message} {nonce : U64} {w : World}
    {a : Admission} {f : Frame World} (h : enact ctx m nonce w (a.gas m) = .ok f) :
    f.gas ≤ m.gasLimit :=
  Nat.le_trans (enact_cases h).2.gas_le (Nat.sub_le _ _)

/-- A message that was admitted, enacted and settled: its call or creation ended in the given
frame. -/
structure Settled (ctx : BlockContext) (m : Message) (w : World) (pool : GasPool) (a : Admission)
    (f : Frame World) (x : Execution) : Prop where
  admission : admission ctx m w pool = .ok a
  enact : InPlace.enact ctx m (w.nonce m.sender) (a.world m w) (a.gas m) = .ok f
  settle : InPlace.settleGas ctx m a.pool f = .ok x

namespace Settled

variable {ctx : BlockContext} {m : Message} {w : World} {pool : GasPool} {a : Admission}
  {f : Frame World} {x : Execution}

theorem admitted (h : Settled ctx m w pool a f x) : Admitted ctx m w pool a :=
  admitted_of_admission h.admission

theorem concluded (h : Settled ctx m w pool a f x) :
    Concluded ctx m (w.nonce m.sender) (a.world m w) f := (InPlace.enact_cases h.enact).1

/-- The gas left is part of the gas limit. -/
theorem gas_le (h : Settled ctx m w pool a f x) : f.gas ≤ m.gasLimit :=
  InPlace.gas_le_of_enact h.enact

theorem execution_eq (h : Settled ctx m w pool a f x) :
    x = ⟨.ok (f.result m.gasLimit),
      (f.store.addBalance m.sender
        ((f.gasBack m.gasLimit).widen.satMul m.gasPrice)).addBalance ctx.coinbase
          ((f.result m.gasLimit).gasUsed.widen.satMul m.gasPrice),
      a.pool.add (f.gasBack m.gasLimit)⟩ := by
  have hsettle := h.settle
  rw [InPlace.settleGas_eq ctx a.pool h.gas_le] at hsettle
  exact (Except.ok.inj hsettle).symm

/-- A message that was settled was included. -/
theorem included (h : Settled ctx m w pool a f x) :
    Included ctx m w pool a f.store (f.gasBack m.gasLimit) (f.result m.gasLimit) x := by
  have hended := (InPlace.enact_cases h.enact).2
  have hlimit := h.gas_le
  have hsplit := f.gasUsed_add_gasBack hlimit
  have hback := f.toNat_gasBack hlimit
  have hgas : (a.gas m).toNat = m.gasLimit.toNat - a.intrinsic.toNat := rfl
  have hintrinsic : a.intrinsic.toNat ≤ m.gasLimit.toNat := h.admitted.intrinsic_le
  have hle : f.gas.toNat ≤ (a.gas m).toNat := hended.gas_le
  have hpaid : f.gas.toNat + 2 * f.store.logs.length ≤ (a.gas m).toNat + 2 * w.logs.length :=
    hended.paid
  have heq := h.execution_eq
  exact ⟨h.admitted, h.concluded.enacted, hsplit, by omega, by omega, hended.undone,
    congrArg Execution.result heq, congrArg Execution.world heq, congrArg Execution.pool heq⟩

end Settled

namespace InPlace

variable {ctx : BlockContext} {m : Message} {w : World} {pool : GasPool}

/-- Once the call or creation has ended, an admitted message is settled. -/
theorem exists_settled {a : Admission} {f : Frame World}
    (hadmission : admission ctx m w pool = .ok a)
    (hf : enact ctx m (w.nonce m.sender) (a.world m w) (a.gas m) = .ok f) :
    ∃ x, Settled ctx m w pool a f x :=
  ⟨_, hadmission, hf, settleGas_eq ctx a.pool (gas_le_of_enact hf)⟩

/-- A message is rejected and changes nothing, or it is admitted, enacted and settled. -/
theorem apply_eq_ok_iff {x : Execution} :
    apply ctx m w pool = .ok x ↔
      (∃ e, admission ctx m w pool = .error e ∧ x = ⟨.error e, w, pool⟩) ∨
        ∃ a f, Settled ctx m w pool a f x := by
  rw [apply_eq]
  constructor
  · intro h
    cases hadmission : admission ctx m w pool with
    | error e =>
      rw [hadmission] at h
      exact Or.inl ⟨e, rfl, (Except.ok.inj h).symm⟩
    | ok a =>
      rw [hadmission] at h
      obtain ⟨f, hf, hsettle⟩ := exists_of_bind h
      exact Or.inr ⟨a, f, hadmission, hf, hsettle⟩
  · rintro (⟨e, hadmission, rfl⟩ | ⟨a, f, h⟩)
    · rw [hadmission]
    · rw [h.admission]
      simp only [h.enact, bind, Except.bind]
      exact h.settle

/-- A message is rejected and changes nothing, or it is included. -/
theorem apply_cases {x : Execution} (h : apply ctx m w pool = .ok x) :
    (∃ e, x = ⟨.error e, w, pool⟩) ∨
      ∃ a v left r, Included ctx m w pool a v left r x := by
  rcases apply_eq_ok_iff.1 h with ⟨e, -, hx⟩ | ⟨a, f, hsettled⟩
  · exact Or.inl ⟨e, hx⟩
  · exact Or.inr ⟨a, f.store, f.gasBack m.gasLimit, f.result m.gasLimit, hsettled.included⟩

end InPlace

/-- In either seat, a message with a result was settled, and the result is that of its frame. -/
theorem Settled.of_apply {ctx : BlockContext} {m : Message} {w : World} {pool : GasPool}
    {x : Execution} {r : ExecutionResult} {seat : Seat}
    (hx : Executors.stock.at seat ctx m w pool = .ok x) (hr : x.result = .ok r) :
    ∃ a f, Settled ctx m w pool a f x ∧ f.result m.gasLimit = r := by
  rw [Executors.stock_at] at hx
  rcases InPlace.apply_eq_ok_iff.1 hx with ⟨e, -, rfl⟩ | ⟨a, f, hsettled⟩
  · cases hr
  · exact ⟨a, f, hsettled, Except.ok.inj (hsettled.included.result.symm.trans hr)⟩

end TwinLedger
