import TwinLedger.Proofs.World.Finalise

/-!
# The sum of all balances

Every write to a balance stops at the ends of the range of a word, so it can make money or lose it:
a credit that does not fit loses the excess, a debit that is not covered makes up the shortfall.
What happens to the sum of all balances is decided by one equation:

> `totalBalance_modify`: the sum moves by the new balance of the account minus the old one.

From it a credit that fits raises the sum by its amount (`totalBalance_addBalance`), a covered
debit lowers it (`totalBalance_subBalance`), and all other writes leave it alone. Finalising
deletes only accounts without balance, so it leaves the sum alone too.

The accounts are a map over two layers. A sum over a map depends only on what the map says at each
key (`SortedMap.sum_congr`), an absent key counting zero.
-/

namespace TwinLedger

open Ranked (rank)

/-! ## Sums over a map -/

namespace SortedMap

variable {κ ν : Type} (f : ν → Nat)

/-- The sum of a number for each value of some entries. -/
def sumOf : List (κ × ν) → Nat
  | [] => 0
  | e :: rest => f e.2 + sumOf rest

theorem sumOf_eq_zero {es : List (κ × ν)} (h : ∀ e ∈ es, f e.2 = 0) : sumOf f es = 0 := by
  induction es with
  | nil => rfl
  | cons e rest ih =>
    have hrest := ih fun e' he' => h e' (List.mem_cons_of_mem e he')
    rw [sumOf, h e List.mem_cons_self, hrest]

variable [Ranked κ]

/-- The sum of a number for each value of the map. -/
def sum (m : SortedMap κ ν) : Nat := sumOf f m.entries

/-- What a key counts in the sum. -/
def share (m : SortedMap κ ν) (k : κ) : Nat := ((m.get? k).map f).getD 0

/-- Putting an entry into a sorted list exchanges what its key counts. -/
theorem sumOf_put (k : κ) (v : ν) {es : List (κ × ν)}
    (h : es.Pairwise fun a b => rank a.1 < rank b.1) :
    sumOf f (put k v es) + ((lookup k es).map f).getD 0 = sumOf f es + f v := by
  induction es with
  | nil => simp [put, lookup, sumOf]
  | cons x rest ih =>
    obtain ⟨hfirst, hrest⟩ := List.pairwise_cons.1 h
    unfold put
    split
    · next hlt =>
      -- All keys are larger, so the new one is not among them.
      have hnone : lookup k (x :: rest) = none := lookup_eq_none fun y hy => by
        rcases List.mem_cons.1 hy with rfl | hy
        · exact Nat.ne_of_lt hlt
        · exact Nat.ne_of_lt (Nat.lt_trans hlt (hfirst y hy))
      rw [hnone]
      simp only [sumOf, Option.map_none, Option.getD_none]
      omega
    · split
      · next heq =>
        rw [lookup, if_pos heq]
        simp only [sumOf, Option.map_some, Option.getD_some]
        omega
      · next hne =>
        have := ih hrest
        rw [lookup, if_neg hne]
        simp only [sumOf]
        omega

theorem sum_insert (m : SortedMap κ ν) (k : κ) (v : ν) :
    (m.insert k v).sum f + m.share f k = m.sum f + f v := sumOf_put f k v m.sorted

/-- Taking a key out of a sorted list takes what it counts out of the sum. -/
theorem sumOf_without (k : κ) {es : List (κ × ν)}
    (h : es.Pairwise fun a b => rank a.1 < rank b.1) :
    sumOf f (without k es) + ((lookup k es).map f).getD 0 = sumOf f es := by
  induction es with
  | nil => rfl
  | cons x rest ih =>
    obtain ⟨hfirst, hrest⟩ := List.pairwise_cons.1 h
    have hlater := ih hrest
    unfold without at hlater ⊢
    by_cases hk : rank k = rank x.1
    · -- The keys behind it are larger, so nothing else is taken out.
      have hnone : lookup k rest = none := lookup_eq_none fun y hy => by
        rw [hk]
        exact Nat.ne_of_lt (hfirst y hy)
      rw [hnone] at hlater
      rw [List.filter_cons_of_neg (by simp [hk]), lookup, if_pos hk]
      simp only [sumOf, Option.map_some, Option.getD_some, Option.map_none,
        Option.getD_none] at hlater ⊢
      omega
    · rw [List.filter_cons_of_pos (by simp [hk]), lookup, if_neg hk]
      simp only [sumOf]
      omega

theorem sum_erase (m : SortedMap κ ν) (k : κ) :
    (m.erase k).sum f + m.share f k = m.sum f := sumOf_without f k m.sorted

/-- The share of a key is part of the sum. -/
theorem share_le_sum (m : SortedMap κ ν) (k : κ) : m.share f k ≤ m.sum f := by
  have := sum_erase f m k
  omega

/-- A map in which every key counts zero sums to zero. -/
theorem sum_eq_zero {m : SortedMap κ ν} (h : ∀ k, m.share f k = 0) : m.sum f = 0 := by
  apply sumOf_eq_zero
  intro e he
  have hshare := h e.1
  rw [share, get?, lookup_of_mem m.sorted he] at hshare
  exact hshare

/-- Maps in which every key counts the same have the same sum. -/
theorem sum_congr {m n : SortedMap κ ν} (h : ∀ k, m.share f k = n.share f k) :
    m.sum f = n.sum f := by
  obtain ⟨es, hsorted⟩ := m
  induction es generalizing n with
  | nil => exact (sum_eq_zero f fun k => (h k).symm).symm
  | cons e rest ih =>
    obtain ⟨hfirst, hrest⟩ := List.pairwise_cons.1 hsorted
    -- The first key is taken out of both maps; what is left agrees again.
    have hnone : lookup e.1 rest = none :=
      lookup_eq_none fun y hy => Nat.ne_of_lt (hfirst y hy)
    have htail : ∀ k, share f ⟨rest, hrest⟩ k = (n.erase e.1).share f k := by
      intro k
      by_cases hk : rank k = rank e.1
      · have hkey : k = e.1 := Ranked.eq_of_rank_eq hk
        rw [hkey, share, share, get?_erase_self, get?, hnone]
      · have hk' := h k
        rw [share, get?, lookup, if_neg hk] at hk'
        rw [share, share, get?_erase, if_neg hk]
        exact hk'
    have hhead : n.share f e.1 = f e.2 := by
      rw [← h e.1, share, get?, lookup, if_pos rfl]
      rfl
    have herase := sum_erase f n e.1
    have hsum := ih hrest htail
    simp only [sum, sumOf] at hsum herase ⊢
    omega

end SortedMap

/-! ## Balances -/

/-- An entry in the books: an amount at one address, nothing at the others. -/
def entry (a : Address) (amount : Nat) (b : Address) : Nat := if b = a then amount else 0

theorem entry_add (a : Address) (x y : Nat) (b : Address) :
    entry a (x + y) b = entry a x b + entry a y b := by
  unfold entry
  split <;> rfl

theorem entry_zero (a b : Address) : entry a 0 b = 0 := ite_self 0

namespace World

/-- The sum of the balances of all accounts. -/
def totalBalance (w : World) : Nat := w.accounts.sum fun account => account.balance.toNat

/-- What an address counts in the sum is its balance. -/
theorem share_accounts (w : World) (a : Address) :
    (w.accounts.share (fun account => account.balance.toNat) a) = (w.balance a).toNat := by
  rw [SortedMap.share, get?_accounts, balance, accountD]
  cases w.account? a with
  | none => rfl
  | some account => rfl

/-- The sum is known once all balances are. -/
theorem totalBalance_congr {v w : World} (h : ∀ a, v.balance a = w.balance a) :
    v.totalBalance = w.totalBalance := by
  apply SortedMap.sum_congr
  intro a
  rw [share_accounts, share_accounts, h]

theorem balance_le_totalBalance (w : World) (a : Address) :
    (w.balance a).toNat ≤ w.totalBalance := by
  rw [← share_accounts]
  exact SortedMap.share_le_sum _ _ _

/-- A write moves the sum by what it does to the one balance. -/
theorem totalBalance_modify (w : World) (a : Address) (f : Account → Account) :
    (w.modify a f).totalBalance + (w.balance a).toNat =
      w.totalBalance + (f (w.accountD a)).balance.toNat := by
  rw [totalBalance, modify, accounts_setAccount, ← share_accounts]
  exact SortedMap.sum_insert _ _ _ _

/-- A write that leaves the balance alone leaves the sum alone. -/
theorem totalBalance_modify_of_same {w : World} {a : Address} {f : Account → Account}
    (h : (f (w.accountD a)).balance = w.balance a) :
    (w.modify a f).totalBalance = w.totalBalance := by
  have := totalBalance_modify w a f
  rw [h] at this
  omega

/-- A credit that fits raises the sum by its amount. -/
theorem totalBalance_addBalance {w : World} {a : Address} {amount : U256}
    (h : (w.balance a).toNat + amount.toNat < Word.range 256) :
    (w.addBalance a amount).totalBalance = w.totalBalance + amount.toNat := by
  have hmodify : (w.addBalance a amount).totalBalance + (w.balance a).toNat =
      w.totalBalance + ((w.balance a).satAdd amount).toNat := totalBalance_modify w a _
  rw [Word.toNat_satAdd, if_pos h] at hmodify
  omega

/-- A credit fits wherever it goes, if it fits on top of the sum. -/
theorem totalBalance_addBalance_of_le {w : World} {a : Address} {amount : U256}
    (h : w.totalBalance + amount.toNat < Word.range 256) :
    (w.addBalance a amount).totalBalance = w.totalBalance + amount.toNat := by
  have := balance_le_totalBalance w a
  exact totalBalance_addBalance (by omega)

/-- A debit that is covered lowers the sum by its amount. -/
theorem totalBalance_subBalance {w : World} {a : Address} {amount : U256}
    (h : amount ≤ w.balance a) :
    (w.subBalance a amount).totalBalance + amount.toNat = w.totalBalance := by
  have hmodify : (w.subBalance a amount).totalBalance + (w.balance a).toNat =
      w.totalBalance + ((w.balance a).satSub amount).toNat := totalBalance_modify w a _
  rw [Word.toNat_satSub] at hmodify
  have hle : amount.toNat ≤ (w.balance a).toNat := h
  omega

/-- A credit that fits is entered at its address. -/
theorem toNat_balance_addBalance {w : World} {a : Address} {amount : U256}
    (h : (w.balance a).toNat + amount.toNat < Word.range 256) (b : Address) :
    ((w.addBalance a amount).balance b).toNat = (w.balance b).toNat + entry a amount.toNat b := by
  unfold entry
  by_cases hb : b = a
  · have hself : (w.addBalance a amount).balance a = (w.balance a).satAdd amount :=
      congrArg Account.balance (accountD_modify_self w a _)
    rw [hb, if_pos rfl, hself, Word.toNat_satAdd_of_lt h]
  · have hother : (w.addBalance a amount).balance b = w.balance b :=
      congrArg Account.balance (accountD_modify_of_ne w _ hb)
    rw [if_neg hb, hother, Nat.add_zero]

/-- A debit that is covered is entered at its address. -/
theorem toNat_balance_subBalance {w : World} {a : Address} {amount : U256}
    (h : amount ≤ w.balance a) (b : Address) :
    ((w.subBalance a amount).balance b).toNat + entry a amount.toNat b = (w.balance b).toNat := by
  unfold entry
  by_cases hb : b = a
  · have hself : (w.subBalance a amount).balance a = (w.balance a).satSub amount :=
      congrArg Account.balance (accountD_modify_self w a _)
    have hle : amount.toNat ≤ (w.balance a).toNat := h
    rw [hb, if_pos rfl, hself, Word.toNat_satSub]
    omega
  · have hother : (w.subBalance a amount).balance b = w.balance b :=
      congrArg Account.balance (accountD_modify_of_ne w _ hb)
    rw [if_neg hb, hother, Nat.add_zero]

/-- Two addresses together hold at most the sum. -/
theorem balance_add_balance_le {w : World} {a b : Address} (h : a ≠ b) :
    (w.balance a).toNat + (w.balance b).toNat ≤ w.totalBalance := by
  have hmodify : (w.setBalance a 0).totalBalance + (w.balance a).toNat = w.totalBalance + 0 :=
    totalBalance_modify w a _
  have hle := balance_le_totalBalance (w.setBalance a 0) b
  have hother : (w.setBalance a 0).balance b = w.balance b :=
    congrArg Account.balance (accountD_modify_of_ne w _ h.symm)
  rw [hother] at hle
  omega

/-! ## Payments -/

section

variable {u w : World} {source target : Address} {amount : U256}
  (hsame : ∀ a, u.balance a = w.balance a) (hcovered : amount ≤ w.balance source)
  (hfunds : w.totalBalance < Word.range 256)

include hsame hcovered hfunds

/-- A payment keeps the sum, if it is covered and all the money is a word. -/
theorem totalBalance_pay :
    ((u.subBalance source amount).addBalance target amount).totalBalance = w.totalBalance := by
  have htotal := totalBalance_congr hsame
  have hdebit := totalBalance_subBalance (w := u) (a := source) (by rw [hsame]; exact hcovered)
  rw [totalBalance_addBalance_of_le (by omega), hdebit, htotal]

/-- A payment is entered at both ends. -/
theorem toNat_balance_pay (a : Address) :
    (((u.subBalance source amount).addBalance target amount).balance a).toNat +
        entry source amount.toNat a =
      (w.balance a).toNat + entry target amount.toNat a := by
  have hcovered' : amount ≤ u.balance source := by
    rw [hsame]
    exact hcovered
  have hdebit := toNat_balance_subBalance hcovered' a
  have htotal := totalBalance_congr hsame
  have hleft := totalBalance_subBalance hcovered'
  have hfit := balance_le_totalBalance (u.subBalance source amount) target
  rw [toNat_balance_addBalance (by omega), ← hsame]
  omega

end

/-! ## Other writes -/

/-- A fresh account keeps the balance that was at its address. -/
theorem balance_createAccount (w : World) (a b : Address) :
    (w.createAccount a).balance b = w.balance b := setAccount_frame Account.balance (by rfl) b

theorem balance_setNonce (w : World) (a : Address) (nonce : U64) (b : Address) :
    (w.setNonce a nonce).balance b = w.balance b := setAccount_frame Account.balance (by rfl) b

theorem totalBalance_setNonce (w : World) (a : Address) (nonce : U64) :
    (w.setNonce a nonce).totalBalance = w.totalBalance := totalBalance_modify_of_same rfl

theorem totalBalance_finalise (w : World) (deleteEmpty : Bool) :
    (w.finalise deleteEmpty).totalBalance = w.totalBalance :=
  totalBalance_congr (balance_finalise w deleteEmpty)

end World

end TwinLedger
