/-!
# Numbers in text

A decimal numeral in front of other text ends where the digits end. So text that begins with a
numeral, and goes on with something that is no digit, tells the number and what stands behind it:

> two such texts are equal exactly if the numbers are and the rests are (`toString_append_inj`).
-/

namespace TwinLedger

/-- Text that does not begin with a digit. -/
def EndsNumeral (text : String) : Prop := text.toList.head?.all (fun c => !c.isDigit) = true

instance (text : String) : Decidable (EndsNumeral text) :=
  inferInstanceAs (Decidable (_ = true))

theorem toList_toString (n : Nat) : (toString n).toList = Nat.toDigits 10 n := by
  rw [Nat.toString_eq_ofList_toDigits, String.toList_ofList]

theorem isDigit_of_mem_toString {n : Nat} {c : Char} (h : c ∈ (toString n).toList) :
    c.isDigit = true := by
  rw [toList_toString] at h
  exact Nat.isDigit_of_mem_toDigits (by decide) (by decide) h

theorem toString_nat_inj {m n : Nat} : toString m = toString n ↔ m = n := by
  constructor
  · intro h
    calc m = Nat.ofDigitChars 10 (Nat.toDigits 10 m) 0 := Nat.ofDigitChars_ten_toDigits.symm
      _ = Nat.ofDigitChars 10 (Nat.toDigits 10 n) 0 := by
        rw [← toList_toString, h, toList_toString]
      _ = n := Nat.ofDigitChars_ten_toDigits
  · exact congrArg toString

/-- Digits up to the first character that is none are those of the numeral in front. -/
theorem takeWhile_toString_append {text : String} (h : EndsNumeral text) (n : Nat) :
    (toString n ++ text).toList.takeWhile Char.isDigit = (toString n).toList := by
  rw [String.toList_append, List.takeWhile_append_of_pos fun c hc => isDigit_of_mem_toString hc]
  unfold EndsNumeral at h
  cases htext : text.toList with
  | nil => rw [List.takeWhile_nil, List.append_nil]
  | cons c rest =>
    rw [htext, List.head?_cons, Option.all_some, Bool.not_eq_true'] at h
    rw [List.takeWhile_cons_of_neg (by rw [h]; exact Bool.false_ne_true), List.append_nil]

theorem toString_append_inj {m n : Nat} {text text' : String} (h : EndsNumeral text)
    (h' : EndsNumeral text') : toString m ++ text = toString n ++ text' ↔ m = n ∧ text = text' := by
  constructor
  · intro heq
    have hdigits := takeWhile_toString_append h m
    rw [heq, takeWhile_toString_append h' n] at hdigits
    have hnumber : m = n := toString_nat_inj.1 (String.toList_inj.1 hdigits).symm
    rw [hnumber, String.append_right_inj] at heq
    exact ⟨hnumber, heq⟩
  · rintro ⟨rfl, rfl⟩
    rfl

end TwinLedger
