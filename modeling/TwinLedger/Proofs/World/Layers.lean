import TwinLedger.Proofs.World.Finalise

/-!
# Two layers are one map

The world keeps its accounts in two layers so that finalising can tell what was written. Seen from
outside there is one map of accounts and a set of addresses that were written since the last
finalisation (`Flat`), and every change to the world is a plain change to these two:

> a write puts one account into the map and its address into the set; finalising takes the empty
> accounts of the set out of the map, if it is to, and empties the set.

`flat_update` says so of one change and `flat_updateAll` of any number of them, in any order. What
the world answers, it answers from the map (`answers_accounts`).
-/

namespace TwinLedger

open Ranked (rank)

/-! ## Some of the entries of a map -/

namespace SortedMap

variable {κ ν : Type} [Ranked κ] {p : κ → ν → Bool}

/-- The entries that pass a test. -/
def keep (p : κ → ν → Bool) (m : SortedMap κ ν) : SortedMap κ ν :=
  ⟨m.entries.filter fun e => p e.1 e.2, m.sorted.filter _⟩

theorem lookup_filter (k : κ) {es : List (κ × ν)}
    (h : es.Pairwise fun a b => rank a.1 < rank b.1) :
    lookup k (es.filter fun e => p e.1 e.2) = (lookup k es).filter (p k) := by
  induction es with
  | nil => rfl
  | cons e rest ih =>
    obtain ⟨hfirst, hrest⟩ := List.pairwise_cons.1 h
    have hlater := ih hrest
    rw [List.filter_cons]
    split
    · next hp =>
      rw [lookup, lookup, hlater]
      split
      · next hk =>
        rw [Ranked.eq_of_rank_eq hk, Option.filter_some, if_pos hp]
      · rfl
    · next hp =>
      rw [lookup]
      split
      · next hk =>
        -- The key does not come again, so dropping the entry leaves nothing to find.
        have hnone : lookup k rest = none := lookup_eq_none fun x hx => by
          rw [hk]
          exact Nat.ne_of_lt (hfirst x hx)
        rw [hlater, hnone, Ranked.eq_of_rank_eq hk, Option.filter_some, if_neg hp]
        rfl
      · exact hlater

theorem get?_keep (m : SortedMap κ ν) (k : κ) : (m.keep p).get? k = (m.get? k).filter (p k) :=
  lookup_filter k m.sorted

end SortedMap

/-! ## One map and a set -/

/-- The accounts, and which of them were written since the last finalisation. -/
structure Flat where
  accounts : SortedMap Address Account
  touched : Address → Bool

/-- A change to the accounts. -/
inductive Update where
  | write (x : World.Write)
  | finalise (deleteEmpty : Bool)
  deriving DecidableEq

namespace Flat

/-- Makes a change. -/
def update (f : Flat) : Update → Flat
  | .write x =>
    ⟨f.accounts.insert x.address (x.result (f.accounts.get? x.address)),
      fun a => a == x.address || f.touched a⟩
  | .finalise deleteEmpty =>
    ⟨if deleteEmpty then f.accounts.keep fun a account => !(f.touched a && account.isEmpty)
      else f.accounts,
      fun _ => false⟩

/-- Makes changes one after the other. -/
def updateAll (f : Flat) (updates : List Update) : Flat := updates.foldl update f

end Flat

namespace World

/-- What of a world is seen from outside. -/
def flat (w : World) : Flat := ⟨w.accounts, w.pending.contains⟩

/-- A written address is pending, and what was pending stays so. -/
theorem contains_setAccount (w : World) (a : Address) (account : Account) (b : Address) :
    (w.setAccount a account).pending.contains b = (b == a || w.pending.contains b) := by
  unfold SortedMap.contains
  by_cases hb : b = a
  · rw [hb, pending_setAccount_self, beq_self_eq_true, Bool.true_or]
    rfl
  · rw [pending_setAccount_of_ne w account hb, beq_eq_false_iff_ne.2 hb, Bool.false_or]

/-- A write is a write to the map. -/
theorem flat_perform (w : World) (x : Write) :
    (x.perform w).flat = w.flat.update (.write x) := by
  rw [Write.perform_eq]
  have haccounts : (w.setAccount x.address (x.result (w.account? x.address))).accounts =
      w.accounts.insert x.address (x.result (w.accounts.get? x.address)) := by
    rw [accounts_setAccount, get?_accounts]
  have htouched : (w.setAccount x.address (x.result (w.account? x.address))).pending.contains =
      fun a => a == x.address || w.pending.contains a :=
    funext (contains_setAccount w x.address _)
  unfold flat
  rw [haccounts, htouched]
  rfl

/-- Finalising takes the empty ones of the written accounts out of the map. -/
theorem accounts_finalise (w : World) :
    (w.finalise true).accounts =
      w.accounts.keep fun a account => !(w.pending.contains a && account.isEmpty) := by
  apply SortedMap.ext_get?
  intro a
  rw [get?_accounts, SortedMap.get?_keep, get?_accounts, account?_finalise, Bool.true_and, isEmpty]
  cases w.account? a with
  | none => simp
  | some account =>
    rw [Option.filter_some, Option.all_some]
    cases w.pending.contains a <;> cases account.isEmpty <;> rfl

/-- Without deletion finalising leaves the map as it is. -/
theorem accounts_finalise_false (w : World) : (w.finalise false).accounts = w.accounts := by
  apply SortedMap.ext_get?
  intro a
  rw [get?_accounts, get?_accounts, account?_finalise]
  rfl

theorem flat_finalise (w : World) (deleteEmpty : Bool) :
    (w.finalise deleteEmpty).flat = w.flat.update (.finalise deleteEmpty) := by
  have htouched : (w.finalise deleteEmpty).pending.contains = fun _ => false := rfl
  unfold flat
  rw [htouched]
  cases deleteEmpty with
  | false => rw [accounts_finalise_false]; rfl
  | true => rw [accounts_finalise]; rfl

/-! ## What is answered -/

/-- The world answers from one map. -/
structure Answers (w : World) (m : SortedMap Address Account) : Prop where
  account? : ∀ a, w.account? a = m.get? a
  exists? : ∀ a, w.exists? a = m.contains a
  isEmpty : ∀ a, w.isEmpty a = (m.get? a).all Account.isEmpty
  balance : ∀ a, w.balance a = ((m.get? a).map (·.balance)).getD 0
  nonce : ∀ a, w.nonce a = ((m.get? a).map (·.nonce)).getD 0
  code : ∀ a, w.code a = ((m.get? a).map (·.code)).getD []
  storage : ∀ a key, w.storage a key = ((m.get? a).bind (·.storage.get? key)).getD 0

/-- Both layers taken together are what the world answers from. -/
theorem answers_accounts (w : World) : w.Answers w.accounts := by
  have hread : ∀ a, w.accounts.get? a = w.account? a := w.get?_accounts
  have hfield : ∀ {α : Type} (field : Account → α) (a : Address),
      field (w.accountD a) = ((w.accounts.get? a).map field).getD (field {}) := by
    intro α field a
    rw [hread, accountD]
    cases w.account? a <;> rfl
  refine ⟨fun a => (hread a).symm, ?_, ?_, hfield _, hfield _, hfield _, ?_⟩
  · intro a
    rw [SortedMap.contains, hread, World.exists?]
  · intro a
    rw [hread, World.isEmpty]
  · intro a key
    have hslot : w.storage a key = (w.accountD a).slot key := rfl
    rw [hslot, hread, accountD]
    cases w.account? a <;> rfl

end World

/-! ## Changes in any order -/

namespace Journaled

/-- Makes a change; finalising forgets all checkpoints. -/
def update (s : Journaled) : Update → Journaled
  | .write x => s.modify x.perform
  | .finalise deleteEmpty => s.finalise deleteEmpty

/-- Makes changes one after the other. -/
def updateAll (s : Journaled) (updates : List Update) : Journaled := updates.foldl update s

theorem flat_update (s : Journaled) (u : Update) :
    (s.update u).world.flat = s.world.flat.update u := by
  cases u with
  | write x => exact s.world.flat_perform x
  | finalise deleteEmpty => exact s.world.flat_finalise deleteEmpty

theorem flat_updateAll (s : Journaled) (updates : List Update) :
    (s.updateAll updates).world.flat = s.world.flat.updateAll updates := by
  induction updates generalizing s with
  | nil => rfl
  | cons u rest ih =>
    show ((s.update u).updateAll rest).world.flat = (s.world.flat.update u).updateAll rest
    rw [ih, flat_update]

/-- Some change wrote the address, and none behind it finalised. -/
def WrittenSince (updates : List Update) (a : Address) : Prop :=
  ∃ front x back, updates = front ++ .write x :: back ∧ x.address = a ∧ ∀ d, .finalise d ∉ back

theorem writtenSince_cons {u : Update} {rest : List Update} {a : Address} :
    WrittenSince (u :: rest) a ↔
      (∃ x, u = .write x ∧ x.address = a ∧ ∀ d, .finalise d ∉ rest) ∨ WrittenSince rest a := by
  constructor
  · rintro ⟨front, x, back, hsplit, hx, hback⟩
    cases front with
    | nil =>
      obtain ⟨rfl, rfl⟩ := List.cons.inj hsplit
      exact Or.inl ⟨x, rfl, hx, hback⟩
    | cons first front =>
      obtain ⟨rfl, rfl⟩ := List.cons.inj hsplit
      exact Or.inr ⟨front, x, back, rfl, hx, hback⟩
  · rintro (⟨x, rfl, hx, hrest⟩ | ⟨front, x, back, rfl, hx, hback⟩)
    · exact ⟨[], x, rest, rfl, hx, hrest⟩
    · exact ⟨u :: front, x, back, rfl, hx, hback⟩

/-- Pending are the addresses written since the last finalisation, and those that were pending
before, if there was none. -/
theorem contains_pending_updateAll (s : Journaled) (updates : List Update) (a : Address) :
    (s.updateAll updates).world.pending.contains a ↔
      WrittenSince updates a ∨ (s.world.pending.contains a ∧ ∀ d, .finalise d ∉ updates) := by
  induction updates generalizing s with
  | nil =>
    have hnever : ¬ WrittenSince [] a := by
      rintro ⟨front, x, back, hsplit, -⟩
      cases front <;> cases hsplit
    constructor
    · exact fun h => Or.inr ⟨h, fun d hd => by cases hd⟩
    · exact fun h => (h.resolve_left hnever).1
  | cons u rest ih =>
    show ((s.update u).updateAll rest).world.pending.contains a ↔ _
    rw [ih, writtenSince_cons]
    cases u with
    | write x =>
      have htouched : (s.update (.write x)).world.pending.contains a =
          (a == x.address || s.world.pending.contains a) :=
        congrFun (congrArg Flat.touched (s.world.flat_perform x)) a
      rw [htouched]
      simp only [Bool.or_eq_true, beq_iff_eq, List.mem_cons, Update.write.injEq, reduceCtorEq,
        false_or, exists_eq_left']
      constructor
      · rintro (h | ⟨rfl | h, hrest⟩)
        · exact Or.inl (Or.inr h)
        · exact Or.inl (Or.inl ⟨rfl, hrest⟩)
        · exact Or.inr ⟨h, hrest⟩
      · rintro ((⟨rfl, hrest⟩ | h) | ⟨h, hrest⟩)
        · exact Or.inr ⟨Or.inl rfl, hrest⟩
        · exact Or.inl h
        · exact Or.inr ⟨Or.inr h, hrest⟩
    | finalise deleteEmpty =>
      have hnone : (s.update (.finalise deleteEmpty)).world.pending.contains a = false := rfl
      rw [hnone]
      constructor
      · rintro (h | ⟨h, -⟩)
        · exact Or.inl (Or.inr h)
        · cases h
      · rintro ((⟨x, hx, -⟩ | h) | ⟨-, hrest⟩)
        · cases hx
        · exact Or.inl h
        · exact absurd List.mem_cons_self (hrest deleteEmpty)

/-- The two layers, after any changes in any order, are the one map and the set after the same
changes: the map is what the world answers from, and the set is what has been written since the
last finalisation. Finalising takes the empty ones of the written accounts out of the map, or
nothing, and afterwards nothing is left to finalise. -/
theorem updateAll_refines_flat (s : Journaled) (updates : List Update) :
    (s.updateAll updates).world.accounts = (s.world.flat.updateAll updates).accounts ∧
    (s.updateAll updates).world.Answers (s.world.flat.updateAll updates).accounts ∧
    (∀ a, (s.updateAll updates).world.pending.contains a =
      (s.world.flat.updateAll updates).touched a) ∧
    (∀ a, (s.updateAll updates).world.pending.contains a ↔
      WrittenSince updates a ∨ (s.world.pending.contains a ∧ ∀ d, .finalise d ∉ updates)) ∧
    ∀ t : Journaled,
      (t.finalise false).world.accounts = t.world.accounts ∧
      (∀ a, (t.finalise true).world.accounts.get? a =
        if t.world.pending.contains a && t.world.isEmpty a then none
        else t.world.accounts.get? a) ∧
      ∀ deleteEmpty,
        (t.finalise deleteEmpty).world.pending = .empty ∧
        (t.finalise deleteEmpty).world.refund = 0 ∧
        ∀ again, (t.finalise deleteEmpty).finalise again = t.finalise deleteEmpty := by
  have hflat := flat_updateAll s updates
  have haccounts : (s.updateAll updates).world.accounts =
      (s.world.flat.updateAll updates).accounts := congrArg Flat.accounts hflat
  refine ⟨haccounts, ?_, fun a => congrFun (congrArg Flat.touched hflat) a,
    contains_pending_updateAll s updates, fun t => ⟨t.world.accounts_finalise_false, ?_, ?_⟩⟩
  · rw [← haccounts]
    exact World.answers_accounts _
  · intro a
    rw [World.get?_accounts, World.get?_accounts]
    exact World.account?_finalise t.world true a
  · exact fun deleteEmpty => ⟨rfl, rfl, fun again => rfl⟩

/-- An empty account that nobody has touched is not deleted, a touched one is. -/
example :
    let w := ({} : World).insertFinalised 1 {} |>.insertFinalised 2 {}
    let s := (⟨w, []⟩ : Journaled).updateAll [.write (.touch 1), .finalise true]
    s.world.exists? 1 = false ∧ s.world.exists? 2 = true := by decide

end Journaled

end TwinLedger
