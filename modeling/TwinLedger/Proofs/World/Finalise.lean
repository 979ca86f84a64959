import TwinLedger.Proofs.World.Writes

/-!
# What finalising leaves to read

Finalising moves the pending layer into the finalised one and deletes what is empty on the way. A
deleted account had neither nonce nor balance nor code, which is also how an absent account reads:

> `accountD_finalise`: every address reads as before, but for a deleted account, which reads as
> an account without anything.

So nonces, balances and code come through (`finalise_frame`). Storage does not count for emptiness,
so nothing of the kind can be said of it here.
-/

namespace TwinLedger

/-- Empty are the accounts without nonce, balance and code. -/
theorem Account.isEmpty_iff (account : Account) :
    account.isEmpty ↔ account.nonce = 0 ∧ account.balance = 0 ∧ account.code = [] := by
  simp [isEmpty, and_assoc]

namespace World

/-- The finalised layer afterwards: a pending account goes over what was there, or takes it away. -/
theorem finalised_finalise (w : World) (deleteEmpty : Bool) (a : Address) :
    (w.finalise deleteEmpty).finalised.get? a =
      ((w.pending.get? a).map fun account =>
        if deleteEmpty && account.isEmpty then none else some account).getD
        (w.finalised.get? a) := by
  apply SortedMap.foldl_entries SortedMap.get? (settleAccount deleteEmpty)
    (fun account _ => if deleteEmpty && account.isEmpty then none else some account)
  · intro layer b account
    unfold settleAccount
    split
    · exact SortedMap.get?_erase_self _ _
    · exact SortedMap.get?_insert_self _ _ _
  · intro layer b account q hq
    unfold settleAccount
    split
    · exact SortedMap.get?_erase_of_ne _ hq
    · exact SortedMap.get?_insert_of_ne _ _ hq

/-- An address answers as before, unless it was pending and empty and has been deleted. -/
theorem account?_finalise (w : World) (deleteEmpty : Bool) (a : Address) :
    (w.finalise deleteEmpty).account? a =
      if deleteEmpty && (w.pending.contains a && w.isEmpty a) then none else w.account? a := by
  have hread : (w.finalise deleteEmpty).account? a =
      (w.finalise deleteEmpty).finalised.get? a := rfl
  rw [hread, finalised_finalise, isEmpty, account?, SortedMap.contains]
  cases w.pending.get? a with
  | none => simp
  | some account => simp

/-- An address reads as before, or its account was empty and has been deleted. -/
theorem accountD_finalise (w : World) (deleteEmpty : Bool) (a : Address) :
    (w.finalise deleteEmpty).accountD a = w.accountD a ∨
      (deleteEmpty && (w.accountD a).isEmpty) ∧ (w.finalise deleteEmpty).accountD a = {} := by
  have hread : (w.finalise deleteEmpty).accountD a =
      ((w.finalise deleteEmpty).finalised.get? a).getD {} := rfl
  rw [hread, finalised_finalise]
  cases hpending : w.pending.get? a with
  | none =>
    refine Or.inl ?_
    rw [accountD, account?, hpending]
    rfl
  | some account =>
    have haccount : w.accountD a = account := accountD_of_pending hpending
    rw [haccount]
    by_cases hdelete : (deleteEmpty && account.isEmpty) = true
    · exact Or.inr ⟨hdelete, by rw [Option.map_some, if_pos hdelete]; rfl⟩
    · exact Or.inl (by rw [Option.map_some, if_neg hdelete]; rfl)

/-- What every empty account shares with an absent one comes through. -/
theorem finalise_frame {α : Type} (field : Account → α)
    (hfield : ∀ account : Account, account.isEmpty → field account = field {}) (w : World)
    (deleteEmpty : Bool) (a : Address) :
    field ((w.finalise deleteEmpty).accountD a) = field (w.accountD a) := by
  rcases accountD_finalise w deleteEmpty a with hsame | ⟨hempty, hgone⟩
  · rw [hsame]
  · rw [hgone, hfield _ (Bool.and_eq_true_iff.1 hempty).2]

theorem nonce_finalise (w : World) (deleteEmpty : Bool) (a : Address) :
    (w.finalise deleteEmpty).nonce a = w.nonce a :=
  finalise_frame Account.nonce (fun account h => (account.isEmpty_iff.1 h).1) w deleteEmpty a

theorem balance_finalise (w : World) (deleteEmpty : Bool) (a : Address) :
    (w.finalise deleteEmpty).balance a = w.balance a :=
  finalise_frame Account.balance (fun account h => (account.isEmpty_iff.1 h).2.1) w deleteEmpty a

theorem code_finalise (w : World) (deleteEmpty : Bool) (a : Address) :
    (w.finalise deleteEmpty).code a = w.code a :=
  finalise_frame Account.code (fun account h => (account.isEmpty_iff.1 h).2.2) w deleteEmpty a

end World

end TwinLedger
