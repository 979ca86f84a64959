import TwinLedger.Proofs.World.Drain

/-!
# Accounts with storage have code

Storage is easily lost: an account counts as empty whatever slots it has, and a fresh account takes
the place of one without keeping its slots. What prevents both is that slots are only ever written
by code:

> `WellFormed`: no slot holds a zero, and an account with slots has code.

An account with code is neither empty nor replaced, so that deleting what is empty
(`WellFormed.storage_finalise`) leaves every storage as it is. The property is said of both layers,
because finalising moves accounts from one to the other; every write keeps it that leaves code and
storage of its account alone (`WellFormed.setAccount_of_same`).
-/

namespace TwinLedger

namespace Account

/-- No slot holds a zero, and an account with slots has code. -/
structure WellFormed (account : Account) : Prop where
  slots : ∀ key value, account.storage.get? key = some value → value.isZero = false
  code : account.storage ≠ .empty → account.code ≠ []

instance (account : Account) : Decidable account.WellFormed :=
  decidable_of_iff ((∀ e ∈ account.storage.entries, e.2.isZero = false) ∧
      (account.storage ≠ .empty → account.code ≠ []))
    ⟨fun h => ⟨SortedMap.forall_get?_iff.2 h.1, h.2⟩,
      fun h => ⟨SortedMap.forall_get?_iff.1 h.slots, h.code⟩⟩

theorem wellFormed_of_no_storage {account : Account} (h : account.storage = .empty) :
    account.WellFormed := by
  refine ⟨?_, fun hsome => absurd h hsome⟩
  intro key value hvalue
  rw [h] at hvalue
  cases hvalue

namespace WellFormed

variable {account : Account}

theorem of_same {account' : Account} (h : account.WellFormed)
    (hstorage : account'.storage = account.storage) (hcode : account'.code = account.code) :
    account'.WellFormed := by
  refine ⟨?_, ?_⟩
  · rw [hstorage]
    exact h.slots
  · rw [hstorage, hcode]
    exact h.code

/-- Without code there is no storage. -/
theorem storage_of_no_code (h : account.WellFormed) (hcode : account.code = []) :
    account.storage = .empty :=
  Decidable.byContradiction fun hsome => h.code hsome hcode

/-- An account with code may have its slots written: a zero is not kept. -/
theorem setSlot (h : account.WellFormed) (hcode : account.code ≠ []) (key value : Hash) :
    (account.setSlot key value).WellFormed := by
  refine ⟨?_, fun _ => hcode⟩
  intro q v hv
  have hread : (write account.storage key value).get? q = some v := hv
  by_cases hq : q = key
  · rw [hq, get?_write_self] at hread
    split at hread
    · cases hread
    · next hzero =>
      cases hread
      exact Bool.eq_false_iff.2 hzero
  · rw [get?_write_of_ne _ _ hq] at hread
    exact h.slots q v hread

end WellFormed

end Account

namespace World

/-- The accounts of both layers are well-formed. -/
structure WellFormed (w : World) : Prop where
  finalised : ∀ a account, w.finalised.get? a = some account → account.WellFormed
  pending : ∀ a account, w.pending.get? a = some account → account.WellFormed

instance (w : World) : Decidable w.WellFormed :=
  decidable_of_iff ((∀ e ∈ w.finalised.entries, e.2.WellFormed) ∧
      ∀ e ∈ w.pending.entries, e.2.WellFormed)
    ⟨fun h => ⟨SortedMap.forall_get?_iff.2 h.1, SortedMap.forall_get?_iff.2 h.2⟩,
      fun h => ⟨SortedMap.forall_get?_iff.1 h.finalised, SortedMap.forall_get?_iff.1 h.pending⟩⟩

/-- No account of the finalised layer is empty. -/
def NoEmptyAccount (w : World) : Prop :=
  ∀ a account, w.finalised.get? a = some account → account.isEmpty = false

instance (w : World) : Decidable w.NoEmptyAccount :=
  decidable_of_iff (∀ e ∈ w.finalised.entries, e.2.isEmpty = false)
    ⟨fun h => SortedMap.forall_get?_iff.2 h, fun h => SortedMap.forall_get?_iff.1 h⟩

namespace WellFormed

variable {w : World}

theorem accountD (h : w.WellFormed) (a : Address) : (w.accountD a).WellFormed := by
  rw [World.accountD, account?]
  cases hpending : w.pending.get? a with
  | some account => exact h.pending a account hpending
  | none =>
    cases hfinalised : w.finalised.get? a with
    | some account => exact h.finalised a account hfinalised
    | none => exact Account.wellFormed_of_no_storage rfl

theorem setAccount (h : w.WellFormed) {a : Address} {account : Account}
    (haccount : account.WellFormed) : (w.setAccount a account).WellFormed := by
  refine ⟨h.finalised, ?_⟩
  intro b other hother
  by_cases hb : b = a
  · rw [hb, pending_setAccount_self] at hother
    cases hother
    exact haccount
  · rw [pending_setAccount_of_ne w account hb] at hother
    exact h.pending b other hother

/-- A write that leaves code and storage alone does no harm. -/
theorem setAccount_of_same (h : w.WellFormed) {a : Address} {account : Account}
    (hstorage : account.storage = (w.accountD a).storage)
    (hcode : account.code = (w.accountD a).code) : (w.setAccount a account).WellFormed :=
  h.setAccount ((h.accountD a).of_same hstorage hcode)

/-- A fresh account has no storage. -/
theorem createAccount (h : w.WellFormed) (a : Address) : (w.createAccount a).WellFormed :=
  h.setAccount (Account.wellFormed_of_no_storage rfl)

theorem pay (h : w.WellFormed) (source target : Address) (amount : U256) :
    ((w.subBalance source amount).addBalance target amount).WellFormed := by
  have hdebit : (w.subBalance source amount).WellFormed := h.setAccount_of_same rfl rfl
  exact hdebit.setAccount_of_same rfl rfl

/-- Finalising only moves accounts. -/
theorem finalise (h : w.WellFormed) (deleteEmpty : Bool) : (w.finalise deleteEmpty).WellFormed := by
  refine ⟨?_, fun a account hnone => by cases hnone⟩
  intro a account hread
  rw [finalised_finalise] at hread
  cases hpending : w.pending.get? a with
  | none =>
    rw [hpending] at hread
    exact h.finalised a account hread
  | some kept =>
    rw [hpending, Option.map_some, Option.getD_some] at hread
    split at hread
    · cases hread
    · cases hread
      exact h.pending a account hpending

/-- Deleting what is empty takes no storage away. -/
theorem storage_finalise (h : w.WellFormed) (deleteEmpty : Bool) (a : Address) :
    ((w.finalise deleteEmpty).accountD a).storage = (w.accountD a).storage := by
  rcases accountD_finalise w deleteEmpty a with hsame | ⟨hempty, hgone⟩
  · rw [hsame]
  · have hcode := ((Account.isEmpty_iff _).1 (Bool.and_eq_true_iff.1 hempty).2).2.2
    rw [hgone, (h.accountD a).storage_of_no_code hcode]

theorem drain (h : w.WellFormed) (dao : DaoFork) : (w.drain dao).WellFormed := by
  refine drain_induction h (fun _ => h.createAccount _) ?_
  intro v a hv
  have hcredit : (v.addBalance dao.refundContract (v.balance a)).WellFormed :=
    hv.setAccount_of_same rfl rfl
  exact hcredit.setAccount_of_same rfl rfl

end WellFormed

/-- Once empty accounts are deleted, none gets into the finalised layer. -/
theorem NoEmptyAccount.finalise {w : World} (h : w.NoEmptyAccount) :
    (w.finalise true).NoEmptyAccount := by
  intro a account hread
  rw [finalised_finalise] at hread
  cases hpending : w.pending.get? a with
  | none =>
    rw [hpending] at hread
    exact h a account hread
  | some kept =>
    rw [hpending, Option.map_some, Option.getD_some, Bool.true_and] at hread
    split at hread
    · cases hread
    · next hkept =>
      cases hread
      exact Bool.eq_false_iff.2 hkept

end World

end TwinLedger
