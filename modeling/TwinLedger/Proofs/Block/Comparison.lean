import TwinLedger.Block.Verifier

/-!
# Comparing two sides

What two executors made of a transaction is compared check by check, up to the first that fails.
Two sides *agree* (`Agree`) if they have the same receipt and gas, or errors of the same text, and
the same world once both worlds are finalised. The comparison is decided by that:

> `check_disagreement?`: what is reported is the first check of `checkOrder` on which the two sides
> differ, so nothing is reported exactly when they agree (`disagreement?_eq_none_iff`).

That one side fails and the other does not is a check of its own, but it stands behind the one on
receipts, of which then one is there and the other is not. It is no part of `checkOrder`.
-/

namespace TwinLedger

variable {σ : Type}

/-! ## Agreement -/

/-- The same receipt and the same gas, or errors of the same text. -/
def Applied.SameOutcome (alternate reference : Applied σ) : Prop :=
  match alternate.outcome, reference.outcome with
  | .ok done, .ok done' => done = done'
  | .error e, .error e' => e.message = e'.message
  | _, _ => False

/-- Agreement of two sides: in the outcome, and in the world after it is finalised. -/
def Agree [WorldState σ] (deleteEmpty : Bool) (alternate reference : Applied σ) : Prop :=
  alternate.SameOutcome reference ∧
    alternate.contents.finalise deleteEmpty = reference.contents.finalise deleteEmpty

/-- The checks that can fail, in the order in which they are made. -/
def checkOrder : List MismatchCheck := [.gasUsed, .receipt, .errorText, .intermediateRoot, .state]

/-- Whether two sides differ in what a check compares. -/
def differs [WorldState σ] (deleteEmpty : Bool) (alternate reference : Applied σ) :
    MismatchCheck → Bool
  | .gasUsed => alternate.gasUsed ≠ reference.gasUsed
  | .receipt => alternate.receipt? ≠ reference.receipt?
  | .errorPresence => alternate.error?.isSome ≠ reference.error?.isSome
  | .errorText => alternate.error? ≠ reference.error?
  | .intermediateRoot =>
    (alternate.contents.finalise deleteEmpty).root ≠
      (reference.contents.finalise deleteEmpty).root
  | .state => alternate.contents.finalise deleteEmpty ≠ reference.contents.finalise deleteEmpty

theorem sameOutcome_iff (a r : Applied σ) :
    a.SameOutcome r ↔
      a.gasUsed = r.gasUsed ∧ a.receipt? = r.receipt? ∧ a.error? = r.error? := by
  unfold Applied.SameOutcome Applied.gasUsed Applied.receipt? Applied.error?
  obtain ⟨outcome, live⟩ := a
  obtain ⟨outcome', live'⟩ := r
  cases outcome with
  | ok done =>
    cases outcome' with
    | ok done' =>
      simp only [Option.some.injEq, and_true]
      exact ⟨fun h => ⟨congrArg Prod.snd h, congrArg Prod.fst h⟩, fun h => Prod.ext h.2 h.1⟩
    | error e' =>
      simp only [reduceCtorEq, and_false]
  | error e =>
    cases outcome' with
    | ok done' => simp only [reduceCtorEq, and_false]
    | error e' => simp only [Option.some.injEq, true_and]

theorem isSome_error?_of_receipt? {a r : Applied σ} (h : a.receipt? = r.receipt?) :
    a.error?.isSome = r.error?.isSome := by
  unfold Applied.receipt? at h
  unfold Applied.error?
  obtain ⟨outcome, live⟩ := a
  obtain ⟨outcome', live'⟩ := r
  cases outcome with
  | ok done =>
    cases outcome' with
    | ok done' => rfl
    | error e' => cases h
  | error e =>
    cases outcome' with
    | ok done' => cases h
    | error e' => rfl

/-! ## The first difference -/

section

variable [WorldState σ]

theorem check_compareOutcomes (deleteEmpty : Bool) (a r : Applied σ) :
    (compareOutcomes a r).map (·.check) =
      [.gasUsed, .receipt, .errorText].find? (differs deleteEmpty a r) := by
  unfold compareOutcomes
  by_cases hgas : a.gasUsed ≠ r.gasUsed
  · rw [if_pos hgas, List.find?_cons_of_pos (by simpa [differs] using hgas)]
    rfl
  rw [if_neg hgas, List.find?_cons_of_neg (by simpa [differs] using hgas)]
  by_cases hreceipt : a.receipt? ≠ r.receipt?
  · rw [if_pos hreceipt, List.find?_cons_of_pos (by simpa [differs] using hreceipt)]
    rfl
  rw [if_neg hreceipt, List.find?_cons_of_neg (by simpa [differs] using hreceipt)]
  -- Receipts that are equal leave no room for an error on one side only.
  have hsome := isSome_error?_of_receipt? (Decidable.not_not.1 hreceipt)
  cases ha : a.error? with
  | none =>
    cases hr : r.error? with
    | none => rw [List.find?_cons_of_neg (by simp [differs, ha, hr])]; rfl
    | some y => rw [ha, hr] at hsome; cases hsome
  | some x =>
    cases hr : r.error? with
    | none => rw [ha, hr] at hsome; cases hsome
    | some y =>
      by_cases htext : x ≠ y
      · simp only [if_pos htext]
        rw [List.find?_cons_of_pos (by simpa [differs, ha, hr] using htext)]
        rfl
      · simp only [if_neg htext]
        rw [List.find?_cons_of_neg (by simpa [differs, ha, hr] using htext)]
        rfl

theorem check_compareWorlds (deleteEmpty : Bool) (a r : Applied σ) :
    (compareWorlds (a.contents.finalise deleteEmpty) (r.contents.finalise deleteEmpty)).map
        (·.check) =
      [.intermediateRoot, .state].find? (differs deleteEmpty a r) := by
  unfold compareWorlds
  by_cases hroot : (a.contents.finalise deleteEmpty).root ≠
      (r.contents.finalise deleteEmpty).root
  · rw [if_pos hroot, List.find?_cons_of_pos (by simpa [differs] using hroot)]
    rfl
  rw [if_neg hroot, List.find?_cons_of_neg (by simpa [differs] using hroot)]
  by_cases hstate : a.contents.finalise deleteEmpty ≠ r.contents.finalise deleteEmpty
  · rw [if_pos hstate, List.find?_cons_of_pos (by simpa [differs] using hstate)]
    rfl
  · rw [if_neg hstate, List.find?_cons_of_neg (by simpa [differs] using hstate)]
    rfl

/-- What is reported is the first difference. -/
theorem check_disagreement? (deleteEmpty : Bool) (a r : Applied σ) :
    (disagreement? deleteEmpty a r).map (·.mismatch.check) =
      checkOrder.find? (differs deleteEmpty a r) := by
  have horder : checkOrder =
      [.gasUsed, .receipt, .errorText] ++ [.intermediateRoot, .state] := rfl
  rw [horder, List.find?_append, ← check_compareOutcomes, ← check_compareWorlds]
  unfold disagreement?
  cases compareOutcomes a r with
  | some m => rfl
  | none =>
    simp only [Option.map_none, Option.none_or, Option.map_map]
    rfl

/-- There is no difference exactly between sides that agree. -/
theorem disagreement?_eq_none_iff (deleteEmpty : Bool) (a r : Applied σ) :
    disagreement? deleteEmpty a r = none ↔ Agree deleteEmpty a r := by
  rw [← Option.map_eq_none_iff (f := (·.mismatch.check)), check_disagreement?, List.find?_eq_none]
  unfold Agree
  rw [sameOutcome_iff]
  constructor
  · intro h
    have hagree : ∀ c ∈ checkOrder, differs deleteEmpty a r c = false :=
      fun c hc => Bool.eq_false_iff.2 (h c hc)
    have hgas : a.gasUsed = r.gasUsed := by simpa [differs] using hagree .gasUsed (by decide)
    have hreceipt : a.receipt? = r.receipt? := by
      simpa [differs] using hagree .receipt (by decide)
    have herror : a.error? = r.error? := by simpa [differs] using hagree .errorText (by decide)
    have hworld : a.contents.finalise deleteEmpty = r.contents.finalise deleteEmpty := by
      simpa [differs] using hagree .state (by decide)
    exact ⟨⟨hgas, hreceipt, herror⟩, hworld⟩
  · rintro ⟨⟨hgas, hreceipt, herror⟩, hworld⟩ c hc
    cases c <;> simp [differs, hgas, hreceipt, herror, hworld]

theorem agree_refl (deleteEmpty : Bool) (a : Applied σ) : Agree deleteEmpty a a :=
  ⟨(sameOutcome_iff a a).2 ⟨rfl, rfl, rfl⟩, rfl⟩

theorem disagreement?_self (deleteEmpty : Bool) (a : Applied σ) :
    disagreement? deleteEmpty a a = none :=
  (disagreement?_eq_none_iff deleteEmpty a a).2 (agree_refl deleteEmpty a)

/-! ## What the comparison does not read -/

/-- The comparison reads the outcomes and the worlds. -/
theorem disagreement?_congr {a a' : Applied σ} (houtcome : a.outcome = a'.outcome)
    (hworld : a.contents = a'.contents) (deleteEmpty : Bool) (r : Applied σ) :
    disagreement? deleteEmpty a r = disagreement? deleteEmpty a' r := by
  unfold disagreement? compareOutcomes Applied.gasUsed Applied.receipt? Applied.error?
  rw [houtcome, hworld]

end

/-- The bundle shows the outcomes. -/
theorem bundle_congr {a a' : Applied σ} (houtcome : a.outcome = a'.outcome) (d : Disagreement)
    (header : Header) (tx : Transaction) (r : Applied σ) :
    d.bundle header tx a r = d.bundle header tx a' r := by
  unfold Disagreement.bundle Applied.report Applied.gasUsed Applied.receipt? Applied.error?
  rw [houtcome]

end TwinLedger
