import TwinLedger.Chain.Address
import TwinLedger.Proofs.Data.Hexadecimal

/-!
# Addresses in text

Bytes are read back from their hexadecimal digits, whatever the case of the letters. A checksum
only puts some letters in upper case, so

> the address is read back from its checksum (`Address.ofString?_checksum`),

and text that begins with a checksum tells the address and what stands behind it.
-/

namespace TwinLedger

namespace Address

/-! ## The case of letters -/

theorem length_withCase (chars hash : List Char) : (withCase chars hash).length = chars.length := by
  induction chars generalizing hash with
  | nil => rfl
  | cons c chars ih =>
    cases hash with
    | nil => rfl
    | cons d hash => rw [withCase, List.length_cons, ih, List.length_cons]

/-- Putting digits in upper case keeps their values. -/
theorem map_value?_withCase {chars : List Char}
    (h : ∀ c ∈ chars, Hex.value? c.toUpper = Hex.value? c) (hash : List Char) :
    (withCase chars hash).map Hex.value? = chars.map Hex.value? := by
  induction chars generalizing hash with
  | nil => rfl
  | cons c chars ih =>
    obtain ⟨hc, hchars⟩ := List.forall_mem_cons.1 h
    cases hash with
    | nil => rfl
    | cons d hash =>
      rw [withCase, List.map_cons, List.map_cons, ih hchars]
      split
      · rw [hc]
      · rfl

theorem ofDigits?_withCase (bytes : Bytes) (hash : List Char) :
    Hex.ofDigits? (withCase (Hex.digits bytes) hash) = some bytes := by
  rw [← Hex.ofDigits?_digits bytes]
  refine Hex.ofDigits?_congr (map_value?_withCase (fun c hc => ?_) hash)
  obtain ⟨n, hn, rfl⟩ := Hex.exists_digit_of_mem_digits hc
  exact Hex.value?_toUpper_digit n hn

/-! ## Checksums -/

theorem toList_checksum (a : Address) :
    ∃ hash, a.checksum.toList = '0' :: 'x' :: withCase (Hex.digits a.toBytes) hash := by
  rw [checksum, String.toList_append, String.toList_ofList, String.toList_ofList]
  exact ⟨_, rfl⟩

/-- An address is read back from its checksum. -/
theorem ofString?_checksum (a : Address) : Hex.ofString? a.checksum = some a.toBytes := by
  obtain ⟨hash, hchars⟩ := toList_checksum a
  rw [Hex.ofString?, hchars]
  exact ofDigits?_withCase a.toBytes hash

theorem length_checksum (a : Address) : a.checksum.toList.length = 42 := by
  obtain ⟨hash, hchars⟩ := toList_checksum a
  rw [hchars, List.length_cons, List.length_cons, length_withCase, Hex.length_digits,
    FixedBytes.length_toBytes]

theorem checksum_inj {a b : Address} : a.checksum = b.checksum ↔ a = b := by
  constructor
  · intro h
    have hread := ofString?_checksum a
    rw [h, ofString?_checksum, Option.some.injEq] at hread
    exact (FixedBytes.toBytes_inj.1 hread).symm
  · exact congrArg checksum

theorem checksum_append_inj {a b : Address} {text text' : String} :
    a.checksum ++ text = b.checksum ++ text' ↔ a = b ∧ text = text' := by
  constructor
  · intro h
    have hlists := congrArg String.toList h
    rw [String.toList_append, String.toList_append] at hlists
    -- Checksums are all of one length.
    have hlength : a.checksum.toList.length = b.checksum.toList.length := by
      rw [length_checksum, length_checksum]
    obtain ⟨hfront, hback⟩ := List.append_inj hlists hlength
    exact ⟨checksum_inj.1 (String.toList_inj.1 hfront), String.toList_inj.1 hback⟩
  · rintro ⟨rfl, rfl⟩
    rfl

end Address

end TwinLedger
