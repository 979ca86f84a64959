import TwinLedger.Gas.Schedule
import TwinLedger.Program.Decoder
import TwinLedger.Proofs.Data.Numerals

/-!
# Instructions that fit their encoding

The encoding of an instruction writes each count in one byte and has room for four topics. For
instructions within these bounds reading is the inverse of encoding:

> reading succeeds exactly in front of the encoding of an instruction that fits, and leaves what
> stands behind it (`Instruction.read_eq_ok_iff`).

Only such instructions come out of the decoder, and for them the price of a log is a small number:
charging an instruction that was read never overflows.
-/

namespace TwinLedger

namespace Opcode

theorem ofByte?_toByte (op : Opcode) : ofByte? op.toByte = some op := by
  cases op with
  | stop => rfl
  | store => rfl
  | log => rfl
  | ret => rfl
  | revert => rfl

theorem toByte_of_ofByte? {b : UInt8} {op : Opcode} (h : ofByte? b = some op) : op.toByte = b := by
  unfold ofByte? at h
  split at h
  · next hb => cases h; exact hb.symm
  · split at h
    · next hb => cases h; exact hb.symm
    · split at h
      · next hb => cases h; exact hb.symm
      · split at h
        · next hb => cases h; exact hb.symm
        · split at h
          · next hb => cases h; exact hb.symm
          · cases h

end Opcode

/-! ## One instruction -/

theorem Bytes.readData?_eq_some_iff {bytes data rest : Bytes} :
    readData? bytes = some (data, rest) ↔
      data.length < 256 ∧ bytes = Instruction.encodeData data ++ rest := by
  constructor
  · intro h
    cases bytes with
    | nil => cases h
    | cons n tail =>
      obtain ⟨htail, hlength⟩ := split?_eq_some h
      refine ⟨?_, ?_⟩
      · rw [hlength]
        exact n.toNat_lt
      · rw [Instruction.encodeData, hlength, UInt8.ofNat_toNat, List.cons_append, ← htail]
  · rintro ⟨hshort, rfl⟩
    have hlength : (UInt8.ofNat data.length).toNat = data.length := by
      rw [UInt8.toNat_ofNat']
      exact Nat.mod_eq_of_lt hshort
    rw [Instruction.encodeData, List.cons_append, readData?, hlength, split?_append]

namespace Instruction

/-- At most four topics, and a count of data bytes that one byte can write. -/
def WellFormed : Instruction → Prop
  | .log topics data => topics.length ≤ maxLogTopics ∧ data.length < 256
  | .ret data => data.length < 256
  | .stop | .store _ _ | .revert => True

/-- The bytes of an instruction are as many as its size says, whatever its counts. -/
theorem length_encode (i : Instruction) : i.encode.length = i.size := by
  cases i with
  | stop => rfl
  | revert => rfl
  | store key value =>
    simp only [encode, List.length_cons, List.length_append, FixedBytes.length_toBytes, size]
  | ret data =>
    simp only [encode, encodeData, List.length_cons, size]
    omega
  | log topics data =>
    have htopics : (topics.flatMap FixedBytes.toBytes).length = 32 * topics.length := by
      induction topics with
      | nil => rfl
      | cons x xs ih =>
        rw [List.flatMap_cons, List.length_append, FixedBytes.length_toBytes, ih, List.length_cons]
        omega
    simp only [encode, encodeData, List.length_cons, List.length_append, htopics, size]
    omega

variable {offset : Nat} {code rest : Bytes} {i : Instruction}

/-- All that reading can come to: an instruction that fits its encoding, and the code is that
encoding with what is left behind it, or a fault that names where the instruction starts. -/
theorem read_spec (offset : Nat) (code : Bytes) :
    match read offset code with
    | .ok (i, rest) => i.WellFormed ∧ code = i.encode ++ rest
    | .error e => e.offset = offset := by
  cases code with
  | nil => rfl
  | cons b bytes =>
    simp only [read]
    cases hop : Opcode.ofByte? b with
    | none => rfl
    | some op =>
      -- Each opcode reads what its encoding writes, part by part, and a part that is missing is a
      -- fault of the instruction, not of the part.
      rw [← Opcode.toByte_of_ofByte? hop]
      cases op with
      | stop => exact ⟨trivial, rfl⟩
      | revert => exact ⟨trivial, rfl⟩
      | store =>
        dsimp only
        cases hkey : FixedBytes.read? 32 bytes with
        | none => rfl
        | some found =>
          obtain ⟨key, afterKey⟩ := found
          dsimp only
          cases hvalue : FixedBytes.read? 32 afterKey with
          | none => rfl
          | some found =>
            obtain ⟨value, rest⟩ := found
            refine ⟨trivial, ?_⟩
            rw [encode, FixedBytes.read?_eq_some_iff.1 hkey, FixedBytes.read?_eq_some_iff.1 hvalue,
              List.cons_append, List.append_assoc]
      | ret =>
        dsimp only
        cases hdata : Bytes.readData? bytes with
        | none => rfl
        | some found =>
          obtain ⟨data, rest⟩ := found
          obtain ⟨hshort, hbytes⟩ := Bytes.readData?_eq_some_iff.1 hdata
          exact ⟨hshort, by rw [encode, hbytes, List.cons_append]⟩
      | log =>
        cases bytes with
        | nil => rfl
        | cons n afterCount =>
          dsimp only
          by_cases hcount : maxLogTopics < n.toNat
          · rw [if_pos hcount]
            rfl
          · rw [if_neg hcount]
            cases htopics : FixedBytes.readMany? 32 n.toNat afterCount with
            | none => rfl
            | some found =>
              obtain ⟨topics, afterTopics⟩ := found
              dsimp only
              cases hdata : Bytes.readData? afterTopics with
              | none => rfl
              | some found =>
                obtain ⟨data, rest⟩ := found
                obtain ⟨hlength, hbytes⟩ := FixedBytes.readMany?_eq_some_iff.1 htopics
                obtain ⟨hshort, hrest⟩ := Bytes.readData?_eq_some_iff.1 hdata
                refine ⟨⟨?_, hshort⟩, ?_⟩
                · rw [hlength]
                  exact Nat.not_lt.1 hcount
                · rw [encode, hlength, UInt8.ofNat_toNat, hbytes, hrest, List.cons_append,
                    List.cons_append, List.append_assoc]

/-- An instruction that fits its encoding is read back, whatever stands behind it. -/
theorem read_encode_append (h : i.WellFormed) (offset : Nat) (rest : Bytes) :
    read offset (i.encode ++ rest) = .ok (i, rest) := by
  cases i with
  | stop => rfl
  | revert => rfl
  | store key value =>
    rw [encode, List.cons_append, List.append_assoc]
    simp only [read, Opcode.ofByte?_toByte]
    rw [FixedBytes.read?_eq_some_iff.2 rfl]
    dsimp only
    rw [FixedBytes.read?_eq_some_iff.2 rfl]
  | ret data =>
    rw [encode, List.cons_append]
    simp only [read, Opcode.ofByte?_toByte]
    rw [Bytes.readData?_eq_some_iff.2 ⟨h, rfl⟩]
  | log topics data =>
    obtain ⟨htopics, hdata⟩ := h
    have hcount : (UInt8.ofNat topics.length).toNat = topics.length := by
      rw [UInt8.toNat_ofNat']
      exact Nat.mod_eq_of_lt (Nat.lt_of_le_of_lt htopics (by decide))
    rw [encode, List.cons_append, List.cons_append, List.append_assoc]
    simp only [read, Opcode.ofByte?_toByte, hcount]
    rw [if_neg (Nat.not_lt.2 htopics), FixedBytes.readMany?_eq_some_iff.2 ⟨rfl, rfl⟩]
    dsimp only
    rw [Bytes.readData?_eq_some_iff.2 ⟨hdata, rfl⟩]

/-- Reading succeeds in front of an instruction that fits its encoding, and nowhere else. -/
theorem read_eq_ok_iff :
    read offset code = .ok (i, rest) ↔ i.WellFormed ∧ code = i.encode ++ rest := by
  constructor
  · intro h
    have hspec := read_spec offset code
    rw [h] at hspec
    exact hspec
  · rintro ⟨hfits, rfl⟩
    exact read_encode_append hfits offset rest

/-- What is read is within the bounds. -/
theorem wellFormed_of_read (h : read offset code = .ok (i, rest)) : i.WellFormed :=
  (read_eq_ok_iff.1 h).1

/-- A fault names the offset at which the instruction starts. -/
theorem offset_of_read_error {e : DecodeError} (h : read offset code = .error e) :
    e.offset = offset := by
  have hspec := read_spec offset code
  rw [h] at hspec
  exact hspec

/-- Where reading fails, no instruction begins that fits its encoding. -/
theorem not_prefix_of_read_error {e : DecodeError} (h : read offset code = .error e)
    (hfits : i.WellFormed) : ¬ i.encode <+: code := by
  rintro ⟨rest, rfl⟩
  rw [read_encode_append hfits] at h
  cases h

end Instruction

namespace Gas

/-- A log within the bounds has a price. -/
theorem exists_logCost {topics length : Nat} (htopics : topics ≤ maxLogTopics)
    (hlength : length < 256) :
    ∃ price cost, logCost topics length = .ok price ∧ instruction price = .ok cost := by
  have hrange : Word.range 64 = 18446744073709551616 := rfl
  have hprice : log + logTopic * topics + logByte * length < Word.range 64 := by
    simp only [log, logTopic, logByte, maxLogTopics] at *
    omega
  have hcost : bareInstruction.toNat + (log + logTopic * topics + logByte * length)
      < Word.range 64 := by
    have hstep : bareInstruction.toNat = 3 := rfl
    simp only [log, logTopic, logByte, maxLogTopics] at *
    omega
  exact ⟨⟨_, hprice⟩, ⟨_, hcost⟩, dif_pos hprice, dif_pos hcost⟩

/-- Any write to a slot has a price. -/
theorem exists_storageCost (wasZero isZero : Bool) :
    ∃ cost, instruction (storageCharge wasZero isZero).cost = .ok cost := by
  cases wasZero
  · cases isZero
    · exact ⟨_, rfl⟩
    · exact ⟨_, rfl⟩
  · cases isZero
    · exact ⟨_, rfl⟩
    · exact ⟨_, rfl⟩

end Gas

end TwinLedger
