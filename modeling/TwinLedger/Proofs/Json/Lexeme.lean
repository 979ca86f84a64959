import TwinLedger.Json.Lexeme
import TwinLedger.Json.Value
import TwinLedger.Proofs.Data.Decimal
import TwinLedger.Proofs.Data.Hexadecimal

/-!
# Strings and numbers in JSON text

What stands between quotes is read back character by character: each has its own way of being
written, and that way is read as the character whatever is behind it (`readPieces_escape`). A
number ends where its digits end. So both are read back in front of what may follow them:

> `readText_quote`: a quoted string is read as the string;
> `readNumber_toString`: digits in front of a comma or a line end are read as the number.
-/

namespace TwinLedger

namespace Lexeme

/-! ## Strings -/

/-- A character that an escape of one letter stands for. -/
theorem readPieces_shortEscape {e c : Char} (hunit : e ≠ 'u') (he : shortEscape? e = some c)
    (rest : List Char) :
    readPieces ('\\' :: e :: rest) =
      (readPieces rest).map fun (pieces, back) => (.char c :: pieces, back) := by
  rw [readPieces]
  · rw [he]
    cases readPieces rest <;> rfl
  · intro a b d x rest' h
    exact absurd h hunit

/-- The escape of a control character has its number in four digits. -/
theorem toList_controlEscape {c : Char} (h : c.toNat < 32) :
    ∃ a b, (Json.controlEscape c).toList = ['\\', 'u', '0', '0', a, b] ∧
      hexQuad? '0' '0' a b = some c.toNat := by
  have hbyte : (UInt8.ofNat c.toNat).toNat = c.toNat := by
    rw [UInt8.toNat_ofNat', Nat.mod_eq_of_lt (by omega)]
  have hzero : Hex.value? '0' = some 0 := rfl
  refine ⟨_, _, by rw [Json.controlEscape, String.toList_append, String.toList_ofList,
    String.toList_ofList]; rfl, ?_⟩
  rw [hbyte, hexQuad?, hzero, Hex.value?_digit _ (by omega),
    Hex.value?_digit _ (Nat.mod_lt _ (by decide))]
  simp only [Option.bind_eq_bind, Option.bind_some, Option.pure_def, Option.some.injEq]
  omega

/-- A character is read from its escape. -/
theorem readPieces_escape (c : Char) (rest : List Char) :
    readPieces ((Json.escape c).toList ++ rest) =
      (readPieces rest).map fun (pieces, back) => (.char c :: pieces, back) := by
  unfold Json.escape
  split
  · next h => exact readPieces_shortEscape (e := '"') (by decide) (by rw [h]; rfl) rest
  split
  · next h => exact readPieces_shortEscape (e := '\\') (by decide) (by rw [h]; rfl) rest
  split
  · next h => exact readPieces_shortEscape (e := 'n') (by decide) (by rw [h]; rfl) rest
  split
  · next h => exact readPieces_shortEscape (e := 'r') (by decide) (by rw [h]; rfl) rest
  split
  · next h => exact readPieces_shortEscape (e := 't') (by decide) (by rw [h]; rfl) rest
  split
  · next h =>
    have hc : shortEscape? 'b' = some c := by rw [← Char.ofNat_toNat c, h]; rfl
    exact readPieces_shortEscape (by decide) hc rest
  split
  · next h =>
    have hc : shortEscape? 'f' = some c := by rw [← Char.ofNat_toNat c, h]; rfl
    exact readPieces_shortEscape (by decide) hc rest
  split
  · next h =>
    obtain ⟨a, b, hchars, hquad⟩ := toList_controlEscape h
    have hunit : Piece.ofUnit c.toNat = .char c := by
      rw [Piece.ofUnit, if_neg (by omega), if_neg (by omega), Char.ofNat_toNat]
    rw [hchars]
    show readPieces ('\\' :: 'u' :: '0' :: '0' :: a :: b :: rest) = _
    rw [readPieces, hquad]
    simp only [Option.bind_eq_bind, Option.bind_some, hunit]
    cases readPieces rest <;> rfl
  · next hquote hslash _ _ _ _ _ hcontrol =>
    -- Any other character stands for itself.
    rw [String.toList_singleton, List.singleton_append, readPieces]
    · rw [if_neg (by simp [hslash, hcontrol])]
      cases readPieces rest <;> rfl
    · exact hquote
    · exact fun _ _ _ _ _ h => absurd h hslash
    · exact fun _ _ h => absurd h hslash

theorem join?_chars (cs : List Char) : join? (cs.map .char) = some cs := by
  induction cs with
  | nil => rfl
  | cons c rest ih => rw [List.map_cons, join?, ih, Option.map_some]

theorem readPieces_escapes (cs rest : List Char) :
    readPieces (cs.flatMap (fun c => (Json.escape c).toList) ++ '"' :: rest) =
      some (cs.map .char, rest) := by
  induction cs with
  | nil => rfl
  | cons c cs ih =>
    rw [List.flatMap_cons, List.append_assoc, readPieces_escape, ih]
    rfl

theorem toList_quote (s : String) :
    (Json.quote s).toList =
      '"' :: s.toList.flatMap (fun c => (Json.escape c).toList) ++ ['"'] := by
  have hfold : ∀ (cs : List Char) (front : String),
      (cs.foldl (fun text c => text ++ Json.escape c) front).toList =
        front.toList ++ cs.flatMap (fun c => (Json.escape c).toList) := by
    intro cs
    induction cs with
    | nil => exact fun front => (List.append_nil _).symm
    | cons c cs ih =>
      intro front
      rw [List.foldl_cons, ih, String.toList_append, List.flatMap_cons, List.append_assoc]
  rw [Json.quote, String.toList_append, hfold]
  rfl

/-- A string is read back from its quotes. -/
theorem readText_quote (s : String) (rest : List Char) :
    ∃ chars, (Json.quote s).toList ++ rest = '"' :: chars ∧
      readText chars = some (some s, rest) := by
  refine ⟨s.toList.flatMap (fun c => (Json.escape c).toList) ++ '"' :: rest, ?_, ?_⟩
  · rw [toList_quote, List.append_assoc]
    rfl
  · rw [readText, readPieces_escapes, Option.map_some]
    simp only [join?_chars, Option.map_some, String.ofList_toList]

/-! ## Numbers -/

/-- What stands behind a value in indented text: a comma, a line end, or nothing. -/
def Follows (rest : List Char) : Prop := ∀ c ∈ rest.head?, c = ',' ∨ c = '\n'

theorem readDigits_toString {rest : List Char} (h : Follows rest) (n : Nat) :
    readDigits ((toString n).toList ++ rest) = ((toString n).toList, rest) := by
  have hdigits : ∀ c ∈ (toString n).toList, c.isDigit = true := fun c => isDigit_of_mem_toString
  rw [readDigits, List.takeWhile_append_of_pos hdigits, List.dropWhile_append_of_pos hdigits]
  cases rest with
  | nil => rw [List.takeWhile_nil, List.dropWhile_nil, List.append_nil]
  | cons c rest =>
    have hc : ¬ c.isDigit = true := by rcases h c rfl with rfl | rfl <;> decide
    rw [List.takeWhile_cons_of_neg hc, List.dropWhile_cons_of_neg hc, List.append_nil]

/-- A numeral with more digits than one does not begin with a zero. -/
theorem head?_toDigits {n : Nat} (h : 0 < n) : (Nat.toDigits 10 n).head? ≠ some '0' := by
  induction n using Nat.strongRecOn with
  | ind n ih =>
    by_cases hsmall : n < 10
    · have hdigit : ∀ d < 10, 0 < d → d.digitChar ≠ '0' := by decide
      rw [Nat.toDigits_of_lt_base hsmall, List.head?_cons]
      exact fun heq => hdigit n hsmall h (Option.some.inj heq)
    · have hfront := ih (n / 10) (by omega) (by omega)
      obtain ⟨c, front, hdigits⟩ := List.exists_cons_of_ne_nil
        (Nat.toDigits_ne_nil (n := n / 10) (b := 10))
      rw [hdigits] at hfront
      rw [Nat.toDigits_of_base_le (by decide) (by omega), hdigits]
      exact hfront

theorem decimal_toString (n : Nat) : decimal (toString n).toList = n := by
  rw [toList_toString]
  exact Nat.ofDigitChars_ten_toDigits

/-- Neither a fraction nor an exponent follows a value. -/
theorem skipFraction_of_follows {rest : List Char} (h : Follows rest) :
    skipFraction rest = some (false, rest) := by
  unfold skipFraction
  split
  · rcases h '.' rfl with hpoint | hpoint <;> cases hpoint
  · rfl

theorem skipExponent_of_follows {rest : List Char} (h : Follows rest) :
    skipExponent rest = some (false, rest) := by
  cases rest with
  | nil => rfl
  | cons c rest => rcases h c rfl with rfl | rfl <;> rfl

/-- A number is read back from its digits. -/
theorem readNumber_toString {rest : List Char} (h : Follows rest) (n : Nat) :
    readNumber ((toString n).toList ++ rest) = some (some n, rest) := by
  obtain ⟨c, digits, hdigits⟩ := List.exists_cons_of_ne_nil
    (show (toString n).toList ≠ [] from toList_toString n ▸ Nat.toDigits_ne_nil)
  have hplain : ((toString n).toList.isEmpty || ((toString n).toList.head? == some '0' &&
      decide (1 < (toString n).toList.length))) = false := by
    rcases Nat.eq_zero_or_pos n with rfl | hpos
    · rfl
    · have hzero := head?_toDigits hpos
      rw [← toList_toString] at hzero
      rw [beq_eq_false_iff_ne.2 hzero, Bool.false_and, Bool.or_false, hdigits]
      rfl
  unfold readNumber
  split
  next negative unsigned hsign =>
  split at hsign
  · next rest' htext =>
    rw [hdigits, List.cons_append] at htext
    have hdigit : c.isDigit = true := isDigit_of_mem_toString (hdigits ▸ List.mem_cons_self)
    rw [(List.cons.inj htext).1] at hdigit
    exact absurd hdigit (by decide)
  · cases hsign
    rw [readDigits_toString h]
    simp only [hplain, skipFraction_of_follows h, decimal_toString, bind, Option.bind,
      skipExponent_of_follows h]
    rfl

end Lexeme

end TwinLedger
