import TwinLedger.Data.Hex
import TwinLedger.Proofs.Data.Numerals

/-!
# Hexadecimal text

A digit has the value that it was made for, whatever the case of a letter. So bytes are read back
from two digits each:

> bytes, and strings of fixed size, are what their text is read as (`FixedBytes.ofString?_hex`).
-/

namespace TwinLedger

namespace Hex

/-! ## Digits -/

theorem value?_digit : ∀ n < 16, value? (digit n) = some n := by decide

/-- The case of a digit does not matter to its value. -/
theorem value?_toUpper_digit : ∀ n < 16, value? (digit n).toUpper = value? (digit n) := by decide

theorem length_digits (bytes : Bytes) : (digits bytes).length = 2 * bytes.length := by
  induction bytes with
  | nil => rfl
  | cons b rest ih =>
    rw [digits, List.length_cons, List.length_cons, ih, List.length_cons]
    omega

theorem exists_digit_of_mem_digits {bytes : Bytes} {c : Char} (h : c ∈ digits bytes) :
    ∃ n < 16, c = digit n := by
  induction bytes with
  | nil => cases h
  | cons b rest ih =>
    have hbyte := b.toNat_lt
    rw [digits, List.mem_cons, List.mem_cons] at h
    rcases h with rfl | rfl | h
    · exact ⟨_, by omega, rfl⟩
    · exact ⟨_, Nat.mod_lt _ (by decide), rfl⟩
    · exact ih h

/-- What is read from characters depends on their values alone. -/
theorem ofDigits?_congr : ∀ {xs ys : List Char},
    xs.map value? = ys.map value? → ofDigits? xs = ofDigits? ys
  | [], [], _ => rfl
  | [_], [_], _ => rfl
  | [_], _ :: _ :: _, h => by simp at h
  | _ :: _ :: _, [_], h => by simp at h
  | x :: x' :: xs, y :: y' :: ys, h => by
    simp only [List.map_cons, List.cons.injEq] at h
    obtain ⟨hhigh, hlow, hrest⟩ := h
    rw [ofDigits?, ofDigits?, hhigh, hlow, ofDigits?_congr hrest]

/-- Bytes are read back from their digits. -/
theorem ofDigits?_digits (bytes : Bytes) : ofDigits? (digits bytes) = some bytes := by
  induction bytes with
  | nil => rfl
  | cons b rest ih =>
    have hbyte := b.toNat_lt
    rw [digits, ofDigits?, value?_digit _ (by omega), value?_digit _ (Nat.mod_lt _ (by decide)), ih]
    simp only [Option.bind_eq_bind, Option.bind_some, Option.pure_def, Nat.div_add_mod,
      UInt8.ofNat_toNat]

/-- Bytes are read back from their text. -/
theorem ofString?_hex (bytes : Bytes) : ofString? bytes.hex = some bytes := by
  have hchars : bytes.hex.toList = '0' :: 'x' :: digits bytes := by
    rw [Bytes.hex, String.toList_append, String.toList_ofList, String.toList_ofList]
    rfl
  rw [ofString?, hchars]
  exact ofDigits?_digits bytes

end Hex

theorem FixedBytes.ofString?_hex {size : Nat} (x : FixedBytes size) :
    (Hex.ofString? x.hex).bind ofBytes? = some x := by
  rw [FixedBytes.hex, Hex.ofString?_hex, Option.bind_some, ofBytes?, if_pos x.length_toBytes,
    ofBytes_toBytes]

end TwinLedger
