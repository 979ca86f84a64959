import TwinLedger.Proofs.World.Balances
import TwinLedger.Proofs.World.Layers
import TwinLedger.World.DaoDrain

/-!
# Where the drained money goes

The drain empties one account after the other into the contract. An account that is listed twice,
or that does not exist, has nothing left to give; the contract itself may be listed too, and then
it is emptied like any other account, into itself.

Where the contract is not listed, no step loses anything (`totalBalance_drain`), and where the
money went is read off the sums: the listed accounts are empty, the accounts that are neither
listed nor the contract are as before, so what is missing is with the contract. Where it is listed,
everything that it holds at its last place on the list is destroyed, and what stands behind that
place is a drain in which it is not listed:

> `drain_funds`: the money of all accounts up to the last place of the contract is lost, the money
> of the accounts behind it is kept.

Both halves compare two sums over all accounts where the worlds differ at some addresses only
(`totalBalance_add_moneyOf`).
-/

namespace TwinLedger

open Ranked (rank)

/-! ## Sums over some of the entries -/

namespace SortedMap

variable {κ ν : Type} (f : ν → Nat)

theorem sumOf_filter_or {p q : κ × ν → Bool} (hpq : ∀ e, p e = true → q e = false)
    (es : List (κ × ν)) :
    sumOf f (es.filter fun e => p e || q e) = sumOf f (es.filter p) + sumOf f (es.filter q) := by
  induction es with
  | nil => rfl
  | cons e rest ih =>
    rw [List.filter_cons, List.filter_cons, List.filter_cons]
    cases hp : p e with
    | true =>
      rw [hpq e hp]
      simp only [Bool.true_or, if_true, Bool.false_eq_true, if_false, sumOf]
      omega
    | false =>
      cases q e <;> simp only [Bool.or_true, Bool.or_false, if_true, Bool.false_eq_true, if_false,
        sumOf] <;> omega

variable [Ranked κ]

/-- What a key counts among the entries that pass a test on the keys. -/
theorem share_keep (m : SortedMap κ ν) (p : κ → Prop) [DecidablePred p] (k : κ) :
    (m.keep fun k _ => decide (p k)).share f k = if p k then m.share f k else 0 := by
  rw [share, get?_keep, share]
  by_cases hk : p k
  · rw [if_pos hk, decide_eq_true hk]
    cases m.get? k <;> rfl
  · rw [if_neg hk, decide_eq_false hk]
    cases m.get? k <;> rfl

end SortedMap

namespace World

/-! ## The money of some accounts -/

/-- The money of the accounts that pass a test, each of them counted once. -/
def moneyOf (p : Address → Prop) [DecidablePred p] (w : World) : Nat :=
  (w.accounts.keep fun a _ => decide (p a)).sum fun account => account.balance.toNat

section

variable {v w : World} {p q : Address → Prop} [DecidablePred p] [DecidablePred q]

theorem moneyOf_congr
    (h : ∀ a, (if p a then (v.balance a).toNat else 0) = if q a then (w.balance a).toNat else 0) :
    v.moneyOf p = w.moneyOf q := by
  apply SortedMap.sum_congr
  intro a
  rw [SortedMap.share_keep, SortedMap.share_keep, share_accounts, share_accounts]
  exact h a

theorem moneyOf_eq_zero (h : ∀ a, p a → w.balance a = 0) : w.moneyOf p = 0 := by
  apply SortedMap.sum_eq_zero
  intro a
  rw [SortedMap.share_keep, share_accounts]
  split
  · next ha =>
    rw [h a ha]
    rfl
  · rfl

/-- The money of one account is its balance. -/
theorem moneyOf_eq (w : World) (a : Address) : w.moneyOf (· = a) = (w.balance a).toNat := by
  have herase := SortedMap.sum_erase (fun account : Account => account.balance.toNat)
    (w.accounts.keep fun b _ => decide (b = a)) a
  have hnothing : ((w.accounts.keep fun b _ => decide (b = a)).erase a).sum
      (fun account : Account => account.balance.toNat) = 0 := by
    apply SortedMap.sum_eq_zero
    intro b
    by_cases hb : b = a
    · rw [hb, SortedMap.share, SortedMap.get?_erase_self]
      rfl
    · rw [SortedMap.share, SortedMap.get?_erase_of_ne _ hb, ← SortedMap.share,
        SortedMap.share_keep, if_neg hb]
  rw [hnothing, SortedMap.share_keep, if_pos rfl, share_accounts, Nat.zero_add] at herase
  exact herase.symm

/-- Accounts of two kinds have together what each kind has. -/
theorem moneyOf_or (w : World) (hpq : ∀ a, p a → ¬ q a) :
    w.moneyOf (fun a => p a ∨ q a) = w.moneyOf p + w.moneyOf q := by
  have hfilter := SortedMap.sumOf_filter_or (fun account : Account => account.balance.toNat)
    (p := fun e => decide (p e.1)) (q := fun e => decide (q e.1))
    (fun e he => decide_eq_false (hpq e.1 (of_decide_eq_true he))) w.accounts.entries
  simp only [← Bool.decide_or] at hfilter
  exact hfilter

theorem moneyOf_add_moneyOf_not (w : World) (p : Address → Prop) [DecidablePred p] :
    w.moneyOf p + w.moneyOf (fun a => ¬ p a) = w.totalBalance := by
  rw [← moneyOf_or w fun a ha hnot => hnot ha]
  apply SortedMap.sum_congr
  intro a
  rw [SortedMap.share_keep, if_pos (Decidable.em (p a))]

/-- Worlds that differ at some addresses differ in the sum by what they hold there. -/
theorem totalBalance_add_moneyOf (h : ∀ a, ¬ p a → v.balance a = w.balance a) :
    v.totalBalance + w.moneyOf p = w.totalBalance + v.moneyOf p := by
  have hrest : v.moneyOf (fun a => ¬ p a) = w.moneyOf fun a => ¬ p a := by
    apply moneyOf_congr
    intro a
    split
    · next ha => rw [h a ha]
    · rfl
  have hv := moneyOf_add_moneyOf_not v p
  have hw := moneyOf_add_moneyOf_not w p
  omega

end

/-! ## What every drain keeps -/

/-- A drain may create the contract, and then drains accounts one after the other. -/
theorem drain_induction {P : World → Prop} {w : World} {dao : DaoFork} (h : P w)
    (hcreate : w.exists? dao.refundContract = false → P (w.createAccount dao.refundContract))
    (hstep : ∀ v a, P v → P (drainAccount dao.refundContract v a)) : P (w.drain dao) := by
  have hlist : ∀ (addresses : List Address) (v : World), P v →
      P (addresses.foldl (drainAccount dao.refundContract) v) := by
    intro addresses
    induction addresses with
    | nil => exact fun v hv => hv
    | cons a rest ih => exact fun v hv => ih _ (hstep v a hv)
  unfold drain
  simp only
  split
  · exact hlist _ w h
  · next hnone => exact hlist _ _ (hcreate (Bool.eq_false_iff.2 hnone))

/-- The drain writes to accounts. -/
theorem extends_drain (w : World) (dao : DaoFork) : w.Extends (w.drain dao) :=
  drain_induction (.refl w) (fun _ => (Extends.refl w).setAccount _ _)
    fun _ _ hv => (hv.setAccount _ _).setAccount _ _

/-- The drain emits nothing. -/
theorem logs_drain (w : World) (dao : DaoFork) : (w.drain dao).logs = w.logs :=
  drain_induction (P := fun v => v.logs = w.logs) rfl (fun _ => rfl) fun _ _ hv => hv

/-- The drain changes balances only. -/
theorem drain_frame {α : Type} (field : Account → α)
    (hfield : ∀ account balance, field { account with balance } = field account) (w : World)
    (dao : DaoFork) (a : Address) :
    field ((w.drain dao).accountD a) = field (w.accountD a) := by
  refine drain_induction (P := fun v => field (v.accountD a) = field (w.accountD a)) rfl
    (fun hnone => createAccount_frame field hnone a) ?_
  intro v b hv
  exact ((setAccount_frame field (hfield _ _) a).trans
    (setAccount_frame field (hfield _ _) a)).trans hv

/-! ## One account drained -/

section

variable {refundContract : Address} {addresses : List Address} {w : World}

/-- The drained account is empty, even if it is the contract, and the others keep what they have. -/
theorem balance_drainAccount {a b : Address} (h : b = a ∨ b ≠ refundContract) :
    (drainAccount refundContract w a).balance b = if b = a then 0 else w.balance b := by
  split
  · next hb =>
    rw [hb]
    exact congrArg Account.balance (accountD_modify_self _ a _)
  · next hb =>
    have hzero : (drainAccount refundContract w a).balance b =
        (w.addBalance refundContract (w.balance a)).balance b :=
      congrArg Account.balance (accountD_modify_of_ne _ _ hb)
    rw [hzero]
    exact congrArg Account.balance (accountD_modify_of_ne w _ (h.resolve_left hb))

/-- Draining an account moves money, unless it is drained into itself. -/
theorem totalBalance_drainAccount {a : Address} (hne : a ≠ refundContract)
    (hfunds : w.totalBalance < Word.range 256) :
    (drainAccount refundContract w a).totalBalance = w.totalBalance := by
  have hfit := Nat.lt_of_le_of_lt (balance_add_balance_le (w := w) hne.symm) hfunds
  have hcredit := totalBalance_addBalance hfit
  have hdebit : (drainAccount refundContract w a).totalBalance +
      ((w.addBalance refundContract (w.balance a)).balance a).toNat =
        (w.addBalance refundContract (w.balance a)).totalBalance + 0 :=
    totalBalance_modify _ a _
  have hbalance : (w.addBalance refundContract (w.balance a)).balance a = w.balance a :=
    congrArg Account.balance (accountD_modify_of_ne w _ hne)
  rw [hbalance] at hdebit
  omega

theorem contains_drainAccount (refundContract : Address) (w : World) (a b : Address) :
    (drainAccount refundContract w a).pending.contains b =
      (b == a || (b == refundContract || w.pending.contains b)) :=
  (contains_setAccount _ a _ b).trans
    (congrArg (b == a || ·) (contains_setAccount w refundContract _ b))

/-- Writing down again what is pending changes nothing. -/
theorem modify_of_pending {a : Address} {f : Account → Account}
    (hpending : w.pending.contains a = true) (h : f (w.accountD a) = w.accountD a) :
    w.modify a f = w := by
  obtain ⟨account, haccount⟩ := Option.isSome_iff_exists.1 hpending
  rw [modify, h, accountD_of_pending haccount]
  refine ext_pending rfl ?_ rfl rfl rfl
  intro b
  by_cases hb : b = a
  · rw [hb, pending_setAccount_self, haccount]
  · rw [pending_setAccount_of_ne w account hb]

/-- An account without balance gives nothing. -/
theorem drainAccount_of_empty {a : Address} (hbalance : w.balance a = 0)
    (hpending : w.pending.contains a = true)
    (hcontract : w.pending.contains refundContract = true) :
    drainAccount refundContract w a = w := by
  have hcredit : w.addBalance refundContract (w.balance a) = w := by
    apply modify_of_pending hcontract
    rw [hbalance]
    simp only [Word.satAdd_zero]
  rw [drainAccount, hcredit]
  apply modify_of_pending hpending
  rw [← hbalance]
  rfl

/-! ## A list of accounts drained -/

theorem balance_foldl_drainAccount {b : Address} (hb : b ≠ refundContract) :
    (addresses.foldl (drainAccount refundContract) w).balance b =
      if b ∈ addresses then 0 else w.balance b := by
  induction addresses generalizing w with
  | nil => rfl
  | cons a rest ih =>
    rw [List.foldl_cons, ih, balance_drainAccount (Or.inr hb)]
    by_cases hrest : b ∈ rest
    · rw [if_pos hrest, if_pos (List.mem_cons_of_mem a hrest)]
    · simp only [List.mem_cons, hrest, or_false, if_false]

/-- Once it is drained itself, the contract is like the others. -/
theorem balance_foldl_drainAccount_append (front : List Address) (b : Address) :
    ((front ++ [refundContract]).foldl (drainAccount refundContract) w).balance b =
      if b ∈ front ++ [refundContract] then 0 else w.balance b := by
  rw [List.foldl_append]
  by_cases hb : b = refundContract
  · rw [if_pos (by simp [hb])]
    exact (balance_drainAccount (Or.inl hb)).trans (if_pos hb)
  · simp only [List.mem_append, List.mem_singleton, hb, or_false]
    rw [List.foldl_cons, List.foldl_nil, balance_drainAccount (Or.inr hb), if_neg hb,
      balance_foldl_drainAccount hb]

/-- The listed accounts are pending in the end, and so is the contract. -/
theorem contains_foldl_drainAccount {b : Address}
    (h : b ∈ addresses ∨ (b = refundContract ∧ addresses ≠ []) ∨ w.pending.contains b = true) :
    (addresses.foldl (drainAccount refundContract) w).pending.contains b = true := by
  induction addresses generalizing w with
  | nil =>
    rcases h with h | ⟨-, h⟩ | h
    · cases h
    · exact absurd rfl h
    · exact h
  | cons a rest ih =>
    have hstep := contains_drainAccount refundContract w a b
    rw [List.foldl_cons]
    rcases h with h | ⟨rfl, -⟩ | h
    · rcases List.mem_cons.1 h with rfl | h
      · exact ih (Or.inr (Or.inr (by rw [hstep]; simp)))
      · exact ih (Or.inl h)
    · exact ih (Or.inr (Or.inr (by rw [hstep]; simp)))
    · exact ih (Or.inr (Or.inr (by rw [hstep, h]; simp)))

theorem exists?_foldl_drainAccount {b : Address} (h : w.exists? b = true) :
    (addresses.foldl (drainAccount refundContract) w).exists? b = true := by
  induction addresses generalizing w with
  | nil => exact h
  | cons a rest ih => exact ih (exists?_setAccount (exists?_setAccount h _ _) _ _)

theorem foldl_drainAccount_of_empty (hbalance : ∀ a ∈ addresses, w.balance a = 0)
    (hpending : ∀ a ∈ addresses, w.pending.contains a = true)
    (hcontract : addresses ≠ [] → w.pending.contains refundContract = true) :
    addresses.foldl (drainAccount refundContract) w = w := by
  induction addresses with
  | nil => rfl
  | cons a rest ih =>
    have hcontract := hcontract (List.cons_ne_nil a rest)
    rw [List.foldl_cons, drainAccount_of_empty (hbalance a List.mem_cons_self)
      (hpending a List.mem_cons_self) hcontract]
    exact ih (fun b hb => hbalance b (List.mem_cons_of_mem a hb))
      (fun b hb => hpending b (List.mem_cons_of_mem a hb)) fun _ => hcontract

/-- Where the contract is not listed, no step loses money, whoever is on the list twice or without
an account. -/
theorem totalBalance_foldl_drainAccount (hlist : refundContract ∉ addresses)
    (hfunds : w.totalBalance < Word.range 256) :
    (addresses.foldl (drainAccount refundContract) w).totalBalance = w.totalBalance := by
  induction addresses generalizing w with
  | nil => rfl
  | cons a rest ih =>
    rw [List.mem_cons, not_or] at hlist
    have hstep := totalBalance_drainAccount (Ne.symm hlist.1) hfunds
    rw [List.foldl_cons, ih hlist.2 (by rw [hstep]; exact hfunds), hstep]

/-- Where the contract is not listed, it gets the money of the listed accounts. -/
theorem balance_foldl_drainAccount_contract (hlist : refundContract ∉ addresses)
    (hfunds : w.totalBalance < Word.range 256) :
    ((addresses.foldl (drainAccount refundContract) w).balance refundContract).toNat =
      (w.balance refundContract).toNat + w.moneyOf (· ∈ addresses) := by
  have htotal := totalBalance_foldl_drainAccount hlist hfunds
  have hdisjoint : ∀ a, a = refundContract → a ∉ addresses := by
    intro a ha
    rw [ha]
    exact hlist
  have hempty : (addresses.foldl (drainAccount refundContract) w).moneyOf (· ∈ addresses) = 0 := by
    apply moneyOf_eq_zero
    intro a ha
    rw [balance_foldl_drainAccount fun hcontract => hdisjoint a hcontract ha, if_pos ha]
  have hbooks := totalBalance_add_moneyOf (v := addresses.foldl (drainAccount refundContract) w)
    (w := w) (p := fun a => a = refundContract ∨ a ∈ addresses) (by
      intro a ha
      rw [balance_foldl_drainAccount fun hcontract => ha (Or.inl hcontract),
        if_neg fun hlisted => ha (Or.inr hlisted)])
  have hsplit : ∀ v : World, v.moneyOf (fun a => a = refundContract ∨ a ∈ addresses) =
      (v.balance refundContract).toNat + v.moneyOf (· ∈ addresses) := by
    intro v
    rw [moneyOf_or v hdisjoint, moneyOf_eq]
  rw [hsplit, hsplit, hempty] at hbooks
  omega

end

/-! ## The whole drain -/

/-- What the drain of a world leaves behind. -/
structure Drained (dao : DaoFork) (w v : World) : Prop where
  emptied : ∀ a ∈ dao.drainList, a ≠ dao.refundContract → v.balance a = 0
  others : ∀ a, a ∉ dao.drainList → a ≠ dao.refundContract → v.balance a = w.balance a
  nonce : ∀ a, v.nonce a = w.nonce a
  code : ∀ a, v.code a = w.code a
  storage : ∀ a, (v.accountD a).storage = (w.accountD a).storage
  /-- Where the contract is not listed, money moves and none is lost, and all at once. -/
  moved : dao.refundContract ∉ dao.drainList →
    v.totalBalance = w.totalBalance ∧
    (v.balance dao.refundContract).toNat =
      (w.balance dao.refundContract).toNat + w.moneyOf (· ∈ dao.drainList) ∧
    v.drain dao = v
  /-- Where it is listed, all money is lost that it holds or has got at its last place. -/
  lost : ∀ front back, dao.drainList = front ++ dao.refundContract :: back →
    dao.refundContract ∉ back →
    v.totalBalance + w.moneyOf (· ∈ front ++ [dao.refundContract]) = w.totalBalance ∧
    (v.balance dao.refundContract).toNat = w.moneyOf (fun a => a ∈ back ∧ a ∉ front) ∧
    (v.drain dao = v ↔ v.balance dao.refundContract = 0)

/-- The drain is the run over the list, in a world that has the contract. -/
theorem drain_eq_foldl (w : World) (dao : DaoFork) :
    ∃ u : World, (∀ a, u.balance a = w.balance a) ∧ u.exists? dao.refundContract = true ∧
      w.drain dao = dao.drainList.foldl (drainAccount dao.refundContract) u := by
  unfold drain
  simp only
  split
  · next hexists => exact ⟨w, fun a => rfl, hexists, rfl⟩
  · refine ⟨w.createAccount dao.refundContract, balance_createAccount w _, ?_, rfl⟩
    rw [exists?, createAccount, account?_setAccount_self]
    rfl

theorem balance_drain {dao : DaoFork} {w : World} {a : Address} (ha : a ≠ dao.refundContract) :
    (w.drain dao).balance a = if a ∈ dao.drainList then 0 else w.balance a := by
  obtain ⟨u, hsame, -, hdrain⟩ := drain_eq_foldl w dao
  rw [hdrain, balance_foldl_drainAccount ha, hsame]

/-- Where the contract is not listed, the drain loses no money. -/
theorem totalBalance_drain {dao : DaoFork} {w : World}
    (hdao : dao.refundContract ∉ dao.drainList) (hfunds : w.totalBalance < Word.range 256) :
    (w.drain dao).totalBalance = w.totalBalance := by
  obtain ⟨u, hsame, -, hdrain⟩ := drain_eq_foldl w dao
  have htotal := totalBalance_congr hsame
  rw [hdrain, totalBalance_foldl_drainAccount hdao (by rw [htotal]; exact hfunds), htotal]

/-- A second drain finds nothing, unless it empties the contract. -/
theorem drain_drain_of_empty {dao : DaoFork} {w : World}
    (h : dao.refundContract ∈ dao.drainList → (w.drain dao).balance dao.refundContract = 0) :
    (w.drain dao).drain dao = w.drain dao := by
  have hempty : ∀ a ∈ dao.drainList, (w.drain dao).balance a = 0 := by
    intro a ha
    by_cases hcontract : a = dao.refundContract
    · rw [hcontract] at ha ⊢
      exact h ha
    · rw [balance_drain hcontract, if_pos ha]
  obtain ⟨u, -, hexists, hdrain⟩ := drain_eq_foldl w dao
  have hopen : (w.drain dao).drain dao =
      dao.drainList.foldl (drainAccount dao.refundContract) (w.drain dao) := by
    rw [hdrain, drain, if_pos (exists?_foldl_drainAccount hexists)]
  rw [hopen]
  apply foldl_drainAccount_of_empty hempty
  · intro a ha
    rw [hdrain]
    exact contains_foldl_drainAccount (Or.inl ha)
  · intro hsome
    rw [hdrain]
    exact contains_foldl_drainAccount (Or.inr (Or.inl ⟨rfl, hsome⟩))

/-- Where the contract is listed, the money up to its last place is lost, and it keeps the money
of the accounts behind that place. -/
theorem drain_listed {dao : DaoFork} {w : World} {front back : List Address}
    (hlist : dao.drainList = front ++ dao.refundContract :: back)
    (hback : dao.refundContract ∉ back) (hfunds : w.totalBalance < Word.range 256) :
    (w.drain dao).totalBalance + w.moneyOf (· ∈ front ++ [dao.refundContract]) = w.totalBalance ∧
    ((w.drain dao).balance dao.refundContract).toNat =
      w.moneyOf fun a => a ∈ back ∧ a ∉ front := by
  obtain ⟨u, hsame, -, hdrain⟩ := drain_eq_foldl w dao
  -- The world at the last place of the contract: all accounts up to there are empty.
  obtain ⟨mid, hmid⟩ : ∃ mid : World,
      mid = (front ++ [dao.refundContract]).foldl (drainAccount dao.refundContract) u := ⟨_, rfl⟩
  have hsplit : w.drain dao = back.foldl (drainAccount dao.refundContract) mid := by
    rw [hdrain, hlist, hmid, ← List.foldl_append, List.append_assoc, List.singleton_append]
  have hbalance : ∀ a, mid.balance a =
      if a ∈ front ++ [dao.refundContract] then 0 else w.balance a := by
    intro a
    rw [hmid, balance_foldl_drainAccount_append, hsame]
  have hlost : mid.totalBalance + w.moneyOf (· ∈ front ++ [dao.refundContract]) =
      w.totalBalance := by
    have hempty : mid.moneyOf (· ∈ front ++ [dao.refundContract]) = 0 :=
      moneyOf_eq_zero fun a ha => by rw [hbalance, if_pos ha]
    have hbooks := totalBalance_add_moneyOf (v := mid) (w := w)
      (p := (· ∈ front ++ [dao.refundContract])) fun a ha => by rw [hbalance, if_neg ha]
    rw [hempty] at hbooks
    exact hbooks
  have hfunds' : mid.totalBalance < Word.range 256 := by omega
  refine ⟨?_, ?_⟩
  · rw [hsplit, totalBalance_foldl_drainAccount hback hfunds', hlost]
  · rw [hsplit, balance_foldl_drainAccount_contract hback hfunds', hbalance,
      if_pos (List.mem_append_right _ (List.mem_singleton_self _))]
    have hkept : mid.moneyOf (· ∈ back) = w.moneyOf fun a => a ∈ back ∧ a ∉ front := by
      apply moneyOf_congr
      intro a
      by_cases hin : a ∈ back
      · have hne : a ≠ dao.refundContract := fun h => hback (h ▸ hin)
        rw [if_pos hin, hbalance]
        by_cases hfront : a ∈ front
        · rw [if_pos (List.mem_append_left _ hfront), if_neg fun h => h.2 hfront]
          rfl
        · rw [if_neg (by simp [hfront, hne]), if_pos ⟨hin, hfront⟩]
      · rw [if_neg hin, if_neg fun h => hin h.1]
    rw [hkept]
    exact Nat.zero_add _

/-- The drain moves the money of the listed accounts into the contract and touches nothing else. It
loses none, unless the contract is listed itself: then what it holds or has got when its last turn
comes is destroyed, and a second drain destroys what it has got since. -/
theorem drain_funds (dao : DaoFork) {w : World} (hfunds : w.totalBalance < Word.range 256) :
    Drained dao w (w.drain dao) where
  emptied a ha hne := by rw [balance_drain hne, if_pos ha]
  others a ha hne := by rw [balance_drain hne, if_neg ha]
  nonce := drain_frame Account.nonce (fun account balance => rfl) w dao
  code := drain_frame Account.code (fun account balance => rfl) w dao
  storage := drain_frame Account.storage (fun account balance => rfl) w dao
  moved hlist := by
    obtain ⟨u, hsame, -, hdrain⟩ := drain_eq_foldl w dao
    have hfunds' : u.totalBalance < Word.range 256 := by
      rw [totalBalance_congr hsame]
      exact hfunds
    have hmoney : u.moneyOf (· ∈ dao.drainList) = w.moneyOf (· ∈ dao.drainList) :=
      moneyOf_congr fun a => by rw [hsame]
    refine ⟨totalBalance_drain hlist hfunds, ?_, drain_drain_of_empty fun h => absurd h hlist⟩
    rw [hdrain, balance_foldl_drainAccount_contract hlist hfunds', hsame, hmoney]
  lost front back hlist hback := by
    obtain ⟨htotal, hcontract⟩ := drain_listed hlist hback hfunds
    refine ⟨htotal, hcontract, fun hsecond => ?_, fun hzero => drain_drain_of_empty fun _ => hzero⟩
    -- The second drain leaves the contract with what the others have by then: nothing.
    have hagain := (drain_listed (w := w.drain dao) hlist hback (by omega)).2
    have hnothing : (w.drain dao).moneyOf (fun a => a ∈ back ∧ a ∉ front) = 0 := by
      apply moneyOf_eq_zero
      intro a ha
      rw [balance_drain fun h => hback (h ▸ ha.1), if_pos (by simp [hlist, ha.1])]
    rw [hsecond, hnothing] at hagain
    exact Word.toNat_inj.1 hagain

/-- The contract stands third on the list, behind an account that is listed twice and before one
with money and one that does not exist: it keeps the seven that come behind its place. -/
theorem drain_funds_listed_contract :
    let w := ((({} : World).insertFinalised 1 { balance := 10 }).insertFinalised 2
      { balance := 5 }).insertFinalised 3 { balance := 7 }
    let dao : DaoFork := ⟨0, true, 1, [2, 2, 1, 3, 9]⟩
    Drained dao w (w.drain dao) ∧ w.totalBalance = 22 ∧ (w.drain dao).totalBalance = 7 :=
  ⟨drain_funds _ (by decide), by decide, by decide⟩

/-- A contract that is listed behind another account is emptied with what it has just got. -/
theorem drain_loses_listed_contract :
    let w := (({} : World).insertFinalised 1 { balance := 10 }).insertFinalised 2 { balance := 32 }
    let dao : DaoFork := ⟨0, true, 2, [1, 2]⟩
    w.totalBalance = 42 ∧ (w.drain dao).totalBalance = 0 ∧ (w.drain dao).balance 2 = 0 := by
  decide

end World

end TwinLedger
