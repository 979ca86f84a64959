import TwinLedger.Proofs.Execution.Identity
import TwinLedger.Proofs.Execution.Requirements
import TwinLedger.Proofs.World.Balances

/-!
# The books of one message

On its way through a message a balance is changed up to six times, each time by an operation that
stops at the ends of the range: the gas is bought, the value leaves one account and reaches another,
all of it may be undone, the gas left is paid back, and the fees are paid. What remains of it is one
equation for each address, whoever of sender, target and author are the same account:

> `Books`: the sender pays for the gas used, and the value goes to the target unless the message
> failed.

No operation stops early, because all the money together is a word (`totalBalance`): what was taken
from one account fits into any other. The price of the gas limit is taken as a whole and comes back
in two parts, which add up since the whole was a product without overflow.
-/

namespace TwinLedger

open World

/-! ## The value -/

/-- The value of a message was moved to an account, and beside that no balance has changed. -/
def Paid (m : Message) (target : Address) (w v : World) : Prop :=
  ∃ u : World, (∀ a, u.balance a = w.balance a) ∧
    ∀ a, v.balance a = ((u.subBalance m.sender m.value).addBalance target m.value).balance a

namespace Paid

variable {m : Message} {target : Address} {w v : World}

theorem of_call (h : ProgramWrites target (InPlace.callWorld m target w) v) :
    Paid m target w v := by
  refine ⟨if w.exists? target then w else w.createAccount target, ?_,
    h.frame Account.balance fun _ _ _ => rfl⟩
  intro a
  split
  · rfl
  · exact balance_createAccount w target a

theorem of_creation {ctx : BlockContext}
    (h : v = InPlace.creationWorld ctx m target w ∨
      v = (InPlace.creationWorld ctx m target w).setCode target m.data) :
    Paid m target w v := by
  refine ⟨if ctx.rules.eip158 then (w.createAccount target).setNonce target 1
    else w.createAccount target, ?_, ?_⟩
  · intro a
    split
    · rw [balance_setNonce, balance_createAccount]
    · exact balance_createAccount w target a
  · intro a
    rcases h with rfl | rfl
    · rfl
    · exact setAccount_frame Account.balance (by rfl) a

variable (h : Paid m target w v) (hvalue : m.value ≤ w.balance m.sender)
  (hfunds : w.totalBalance < Word.range 256)

include h hvalue hfunds

theorem totalBalance_eq : v.totalBalance = w.totalBalance := by
  obtain ⟨u, hsame, hpaid⟩ := h
  rw [totalBalance_congr hpaid, totalBalance_pay hsame hvalue hfunds]

/-- The value is entered at both ends. -/
theorem toNat_balance (a : Address) :
    (v.balance a).toNat + entry m.sender m.value.toNat a =
      (w.balance a).toNat + entry target m.value.toNat a := by
  obtain ⟨u, hsame, hpaid⟩ := h
  rw [hpaid, toNat_balance_pay hsame hvalue hfunds]

end Paid

/-- Calls and creations move the value, if the sender has it. -/
theorem Enacted.totalBalance {ctx : BlockContext} {m : Message} {nonce : U64} {w v : World}
    (h : Enacted ctx m nonce w v) (hvalue : m.value ≤ w.balance m.sender)
    (hfunds : w.totalBalance < Word.range 256) : v.totalBalance = w.totalBalance := by
  cases h with
  | nothing => rfl
  | called hrecipient hprogram => exact (Paid.of_call hprogram).totalBalance_eq hvalue hfunds
  | created hrecipient hnonce hcode hdeposit =>
    exact (Paid.of_creation hdeposit).totalBalance_eq hvalue hfunds

/-- The value that a message moves in the end. -/
def Message.moved (m : Message) (failed : Bool) : Nat := if failed then 0 else m.value.toNat

/-- What is undone moves nothing, and what is not undone moves the value to the target. -/
theorem Concluded.toNat_balance {ctx : BlockContext} {m : Message} {w : World} {f : Frame World}
    (h : Concluded ctx m m.nonce w f) (hvalue : m.value ≤ w.balance m.sender)
    (hfunds : w.totalBalance < Word.range 256) (a : Address) :
    (f.store.balance a).toNat + entry m.sender (m.moved f.failed) a =
      (w.balance a).toNat + entry m.target (m.moved f.failed) a := by
  have hundone : ∀ failed, m.moved failed = 0 →
      (w.balance a).toNat + entry m.sender (m.moved failed) a =
        (w.balance a).toNat + entry m.target (m.moved failed) a := by
    intro failed hnothing
    rw [hnothing, entry_zero, entry_zero]
  cases h with
  | idle gas hzero => exact hundone false (congrArg Word.toNat hzero)
  | @called target f hrecipient hok hprogram =>
    rw [hok, Message.target_of_recipient hrecipient]
    exact (Paid.of_call hprogram).toNat_balance hvalue hfunds a
  | created hrecipient hok hnonce hcode hdeposit =>
    rw [hok, Message.target_of_creation hrecipient]
    exact (Paid.of_creation hdeposit).toNat_balance hvalue hfunds a
  | reverted gas hmay => exact hundone true rfl
  | halted => exact hundone true rfl

/-! ## The gas -/

namespace Admission

variable {ctx : BlockContext} {m : Message} {w : World} {pool : GasPool} {a : Admission}

theorem totalBalance_world (h : Admitted ctx m w pool a) :
    (a.world m w).totalBalance + a.gasCost.toNat = w.totalBalance := by
  unfold world
  rw [totalBalance_setNonce]
  exact totalBalance_subBalance h.gasCost_le

/-- The purchase is entered at the sender. -/
theorem toNat_balance_world (h : Admitted ctx m w pool a) (b : Address) :
    ((a.world m w).balance b).toNat + entry m.sender a.gasCost.toNat b = (w.balance b).toNat := by
  have hcounted : (a.world m w).balance b = (w.subBalance m.sender a.gasCost).balance b :=
    setAccount_frame Account.balance (by rfl) b
  rw [hcounted]
  exact toNat_balance_subBalance h.gasCost_le b

/-- The sender still has the value. -/
theorem value_le_balance_world (h : Admitted ctx m w pool a) :
    m.value ≤ (a.world m w).balance m.sender := by
  rw [balance, accountD_world_self]
  exact h.value_le

end Admission

namespace Included

variable {ctx : BlockContext} {m : Message} {w v : World} {pool : GasPool} {a : Admission}
  {left : U64} {r : ExecutionResult} {x : Execution} (h : Included ctx m w pool a v left r x)

include h

theorem gasUsed_le : r.gasUsed ≤ m.gasLimit := by
  have hsplit := h.gas
  exact Word.le_iff.2 (by omega)

theorem left_le : left ≤ m.gasLimit := by
  have hsplit := h.gas
  exact Word.le_iff.2 (by omega)

/-- The price of the gas limit comes back in two parts. -/
theorem price_split :
    (left.widen.satMul m.gasPrice).toNat + r.gasUsed.toNat * m.gasPrice.toNat =
      a.gasCost.toNat := by
  rw [h.admitted.toNat_price h.left_le, h.admitted.toNat_gasCost, ← h.gas, Nat.add_mul,
    Nat.add_comm]

/-- The gas used is missing from the pool. -/
theorem toNat_pool : x.pool.gas.toNat + r.gasUsed.toNat = pool.gas.toNat := by
  obtain ⟨hle, hbought⟩ := GasPool.toNat_sub h.admitted.pool
  have hsplit := h.gas
  have hpool := pool.gas.isLt
  rw [h.pool, GasPool.toNat_add (by omega)]
  omega

/-- The message has raised the nonce of its sender, and nothing behind it takes that back. -/
theorem toNat_nonce :
    (x.world.nonce m.sender).toNat = (w.nonce m.sender).toNat + 1 := by
  have hraised := Admission.nonce_world_self (a := a) h.admitted.nonce_ne_max
  have hne : (a.world m w).nonce m.sender ≠ 0 := by
    intro hzero
    rw [hzero] at hraised
    cases hraised
  have hsettled : x.world.nonce m.sender = v.nonce m.sender :=
    h.world_frame Account.nonce (fun _ _ => rfl) m.sender
  rw [hsettled, h.enacted.keeps.nonce m.sender hne, hraised]

variable (hfunds : w.totalBalance < Word.range 256)

include hfunds

/-- A call or creation keeps the sum that the purchase has left. -/
theorem totalBalance_enacted : v.totalBalance + a.gasCost.toNat = w.totalBalance := by
  have hbought := Admission.totalBalance_world h.admitted
  have hkept := h.enacted.totalBalance (Admission.value_le_balance_world h.admitted) (by omega)
  omega

theorem totalBalance : x.world.totalBalance = w.totalBalance := by
  have henacted := h.totalBalance_enacted hfunds
  have hprice := h.price_split
  have hfees := h.admitted.toNat_price h.gasUsed_le
  have hrepaid : (v.addBalance m.sender (left.widen.satMul m.gasPrice)).totalBalance =
      v.totalBalance + (left.widen.satMul m.gasPrice).toNat :=
    totalBalance_addBalance_of_le (by omega)
  rw [h.world, totalBalance_addBalance_of_le (by omega), hrepaid]
  omega

/-- What is paid back is entered at the sender, and the fees at the author. -/
theorem toNat_balance_settled (b : Address) :
    (x.world.balance b).toNat =
      (v.balance b).toNat + entry m.sender (left.widen.satMul m.gasPrice).toNat b +
        entry ctx.coinbase (r.gasUsed.toNat * m.gasPrice.toNat) b := by
  have henacted := h.totalBalance_enacted hfunds
  have hprice := h.price_split
  have hfees := h.admitted.toNat_price h.gasUsed_le
  have hrepaid : (v.addBalance m.sender (left.widen.satMul m.gasPrice)).totalBalance =
      v.totalBalance + (left.widen.satMul m.gasPrice).toNat :=
    totalBalance_addBalance_of_le (by omega)
  -- Each credit fits on top of all the money that is there when it is made.
  have hsender := balance_le_totalBalance v m.sender
  have hauthor := balance_le_totalBalance
    (v.addBalance m.sender (left.widen.satMul m.gasPrice)) ctx.coinbase
  rw [h.world, toNat_balance_addBalance (by omega), toNat_balance_addBalance (by omega), hfees]

end Included

/-! ## The message -/

/-- What a message that was included has done to balances, to the nonce of its sender and to the
pool. -/
structure Books (ctx : BlockContext) (m : Message) (w : World) (pool : GasPool)
    (r : ExecutionResult) (x : Execution) : Prop where
  /-- The sender pays for the gas used and, unless the message failed, the value; the target gets
  the value, and the author the price of the gas. -/
  balance : ∀ a, (x.world.balance a).toNat +
      entry m.sender (r.gasUsed.toNat * m.gasPrice.toNat + m.moved r.failed) a =
    (w.balance a).toNat + entry m.target (m.moved r.failed) a +
      entry ctx.coinbase (r.gasUsed.toNat * m.gasPrice.toNat) a
  nonce : (x.world.nonce m.sender).toNat = (w.nonce m.sender).toNat + 1
  pool : x.pool.gas.toNat + r.gasUsed.toNat = pool.gas.toNat
  intrinsic_le : m.intrinsicGas ctx.rules.homestead ≤ 2 * r.gasUsed.toNat
  gasUsed_le : r.gasUsed ≤ m.gasLimit

theorem Settled.books {ctx : BlockContext} {m : Message} {w : World} {pool : GasPool}
    {a : Admission} {f : Frame World} {x : Execution} (h : Settled ctx m w pool a f x)
    (hfunds : w.totalBalance < Word.range 256) :
    Books ctx m w pool (f.result m.gasLimit) x := by
  have hincluded := h.included
  have hbought := Admission.totalBalance_world h.admitted
  have hconcluded : Concluded ctx m m.nonce (a.world m w) f := by
    have := h.concluded
    rwa [h.admitted.nonce] at this
  refine ⟨?_, hincluded.toNat_nonce, hincluded.toNat_pool, ?_, hincluded.gasUsed_le⟩
  · -- The purchase, the value and the settlement are three equations at each address; the price of
    -- the gas given back drops out of their sum.
    intro b
    have hpurchase := Admission.toNat_balance_world h.admitted b
    have hmoved := hconcluded.toNat_balance (Admission.value_le_balance_world h.admitted)
      (by omega) b
    have hsettled := hincluded.toNat_balance_settled hfunds b
    have hfailed : (f.result m.gasLimit).failed = f.failed := rfl
    rw [← hincluded.price_split, entry_add] at hpurchase
    rw [entry_add, hfailed]
    omega
  · rw [← h.admitted.toNat_intrinsic]
    exact hincluded.intrinsic_le

/-- If all the money is a word, the books of a message that an executor includes are in order,
whatever accounts coincide, under all rules, and whether the message failed or not. -/
theorem message_balances_books {ctx : BlockContext} {m : Message} {w : World} {pool : GasPool}
    {x : Execution} {r : ExecutionResult} (seat : Seat) (hfunds : w.totalBalance < Word.range 256)
    (hx : Executors.stock.at seat ctx m w pool = .ok x) (hr : x.result = .ok r) :
    Books ctx m w pool r x := by
  obtain ⟨a, f, hsettled, rfl⟩ := Settled.of_apply hx hr
  exact hsettled.books hfunds

/-! ## An example -/

/-- An account with a million, a contract that clears a slot, and one that writes a slot, emits a
log and reverts. -/
def sampleWorld : World :=
  let clearing : Account :=
    { nonce := 1
      code := (Instruction.store 1 0).encode
      storage := SortedMap.empty.insert 1 5 }
  let reverting : Account :=
    { nonce := 1
      code := (Instruction.store 1 7).encode ++ (Instruction.log [] []).encode ++
        Instruction.revert.encode }
  ((({} : World).insertFinalised 16 { balance := 1000000 }).insertFinalised 17
    clearing).insertFinalised 18 reverting

/-- A call with a value of five. -/
def sampleMessage (recipient : Address) (gasLimit : U64) : Message where
  sender := 16
  recipient := some recipient
  nonce := 0
  value := 5
  gasLimit
  gasPrice := 2
  data := []

/-- A block of the given author, under all rules. -/
def sampleContext (coinbase : Address) : BlockContext where
  origin := 16
  gasPrice := 2
  coinbase
  number := 0
  timestamp := 0
  gasLimit := 100000
  rules := ⟨true, true, true, true⟩

/-- A call that earns a refund, in a block of its own sender. -/
theorem message_balances_books_own_block :
    ∃ x r, Executors.stock.at .alternate (sampleContext 16) (sampleMessage 17 60000) sampleWorld
        ⟨100000⟩ = .ok x ∧
      x.result = .ok r ∧ r.failed = false ∧
      Books (sampleContext 16) (sampleMessage 17 60000) sampleWorld ⟨100000⟩ r x := by
  have hanswer : (Executors.stock.at .alternate (sampleContext 16) (sampleMessage 17 60000)
      sampleWorld ⟨100000⟩).toOption.any (fun x => x.result.toOption.any fun r => !r.failed) =
        true := by decide +kernel
  obtain ⟨x, hx, hresult⟩ := exists_of_any hanswer
  obtain ⟨r, hr, hfailed⟩ := exists_of_any hresult
  have hfunds : sampleWorld.totalBalance < Word.range 256 := by decide +kernel
  exact ⟨x, r, hx, hr, by simpa using hfailed, message_balances_books .alternate hfunds hx hr⟩

end TwinLedger
