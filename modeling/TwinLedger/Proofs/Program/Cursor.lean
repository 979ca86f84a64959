import TwinLedger.Proofs.Program.Decoding

/-!
# Programs read by position

A position moves over the code. A read adds its length to the position, a sum that the counter has
to hold, and takes the bytes between the two positions, which have to be bytes of the code; then
the one byte that was taken is looked at, or all 32 of them. Where the code is not as long as that
the program halts, but a sum that leaves the counter, a byte that was not taken or a count of bytes
that is another one would end the whole computation. It never comes to this:

> read by position, a program is what it is when read from the front (`Cursor.decode_eq`), and no
> read leaves the code (`Cursor.within_of_take`).

The counter may be of any size that holds the length of the code and of one read behind it. Code in
memory is at most half as long as the counter can say.
-/

namespace TwinLedger

/-- A position in the code, and the bytes ahead of it. -/
structure Stands (code : Bytes) (pc : Nat) (ahead : Bytes) : Prop where
  within : pc ≤ code.length
  drop_eq : code.drop pc = ahead

namespace Stands

variable {code ahead rest : Bytes} {pc : Nat}

theorem start (code : Bytes) : Stands code 0 code := ⟨Nat.zero_le _, rfl⟩

theorem lt_length_iff (h : Stands code pc ahead) : pc < code.length ↔ ahead ≠ [] := by
  rw [← h.drop_eq, Ne, List.drop_eq_nil_iff, Nat.not_le]

/-- The position moves over what is read. -/
theorem advance {front : Bytes} (h : Stands code pc (front ++ rest)) :
    Stands code (pc + front.length) rest := by
  have hlength := congrArg List.length h.drop_eq
  rw [List.length_drop, List.length_append] at hlength
  have hwithin := h.within
  refine ⟨by omega, ?_⟩
  rw [← List.drop_drop, h.drop_eq, List.drop_left]

theorem byte {b : UInt8} (h : Stands code pc (b :: rest)) : Stands code (pc + 1) rest := by
  have hfront : Stands code pc ([b] ++ rest) := h
  exact hfront.advance

theorem hash {x : Hash} (h : Stands code pc ahead)
    (hread : FixedBytes.read? 32 ahead = some (x, rest)) : Stands code (pc + 32) rest := by
  rw [FixedBytes.read?_eq_some_iff.1 hread] at h
  have hnext := h.advance
  rw [FixedBytes.length_toBytes] at hnext
  exact hnext

theorem hashes {n : Nat} {xs : List Hash} (h : Stands code pc ahead)
    (hread : FixedBytes.readMany? 32 n ahead = some (xs, rest)) :
    Stands code (pc + 32 * n) rest := by
  obtain ⟨hcount, hahead⟩ := FixedBytes.readMany?_eq_some_iff.1 hread
  rw [hahead] at h
  have hlength : (xs.flatMap FixedBytes.toBytes).length = 32 * n := by
    have hread := (FixedBytes.length_of_readMany? hread).1
    rw [hahead, List.length_append] at hread
    omega
  rw [← hlength]
  exact h.advance

end Stands

namespace Cursor

/-- Takes the next `n` bytes, with the position behind them. -/
def take (limit : Nat) (code : Bytes) (pc n : Nat) : Checked (Option (Bytes × Nat)) :=
  if limit < pc + n then .error .overflow
  else if code.length < pc + n then .ok none
  else .ok (some ((code.drop pc).take n, pc + n))

/-- Takes the next byte. -/
def byte (limit : Nat) (code : Bytes) (pc : Nat) : Checked (Option (UInt8 × Nat)) := do
  match ← take limit code pc 1 with
  | none => .ok none
  | some ([], _) => .error .overflow
  | some (b :: _, next) => .ok (some (b, next))

/-- Takes the next 32 bytes. -/
def hash (limit : Nat) (code : Bytes) (pc : Nat) : Checked (Option (Hash × Nat)) := do
  match ← take limit code pc 32 with
  | none => .ok none
  | some (bytes, next) =>
    match FixedBytes.ofBytes? bytes with
    | none => .error .overflow
    | some x => .ok (some (x, next))

/-- Takes the next 32 bytes so many times. -/
def hashes (limit : Nat) (code : Bytes) : Nat → Nat → Checked (Option (List Hash × Nat))
  | 0, pc => .ok (some ([], pc))
  | n + 1, pc => do
    match ← hash limit code pc with
    | none => .ok none
    | some (x, next) =>
      match ← hashes limit code n next with
      | none => .ok none
      | some (xs, next) => .ok (some (x :: xs, next))

/-- Takes a length byte and as many bytes. -/
def data (limit : Nat) (code : Bytes) (pc : Nat) : Checked (Option (Bytes × Nat)) := do
  match ← byte limit code pc with
  | none => .ok none
  | some (n, next) => take limit code next n.toNat

/-- Takes one instruction. -/
def instruction (limit : Nat) (code : Bytes) (pc : Nat) :
    Checked (Except DecodeError (Instruction × Nat)) := do
  match ← byte limit code pc with
  | none => .ok (.error (.truncated pc))
  | some (b, next) =>
    match Opcode.ofByte? b with
    | none => .ok (.error (.unknownOpcode pc b))
    | some .stop => .ok (.ok (.stop, next))
    | some .revert => .ok (.ok (.revert, next))
    | some .store =>
      match ← hash limit code next with
      | none => .ok (.error (.truncated pc))
      | some (key, next) =>
        match ← hash limit code next with
        | none => .ok (.error (.truncated pc))
        | some (value, next) => .ok (.ok (.store key value, next))
    | some .ret =>
      match ← data limit code next with
      | none => .ok (.error (.truncated pc))
      | some (bytes, next) => .ok (.ok (.ret bytes, next))
    | some .log =>
      match ← byte limit code next with
      | none => .ok (.error (.truncated pc))
      | some (n, next) =>
        if maxLogTopics < n.toNat then .ok (.error (.tooManyTopics pc n.toNat))
        else
          match ← hashes limit code n.toNat next with
          | none => .ok (.error (.truncated pc))
          | some (topics, next) =>
            match ← data limit code next with
            | none => .ok (.error (.truncated pc))
            | some (bytes, next) => .ok (.ok (.log topics bytes, next))

/-- Takes instructions up to the end of the code or to the first that ends a run. -/
def decodeFrom (limit : Nat) (code : Bytes) (pc : Nat) :
    Checked (Except DecodeError (List Instruction)) :=
  if pc < code.length then
    match instruction limit code pc with
    | .error fault => .error fault
    | .ok (.error e) => .ok (.error e)
    | .ok (.ok (i, next)) =>
      if i.isTerminal then .ok (.ok [i])
      -- A position that stays where it is would be read for ever.
      else if pc < next then
        (decodeFrom limit code next).map fun program => program.map (i :: ·)
      else .error .overflow
  else .ok (.ok [])
termination_by code.length - pc

/-! ## Single reads -/

/-- A read that succeeds took as many bytes as were asked for, all of them from the code. -/
theorem within_of_take {limit pc n next : Nat} {code bytes : Bytes}
    (h : take limit code pc n = .ok (some (bytes, next))) :
    next = pc + n ∧ next ≤ code.length ∧ bytes.length = n := by
  unfold take at h
  split at h
  · cases h
  · split at h
    · cases h
    · next hlong =>
      cases h
      refine ⟨rfl, by omega, ?_⟩
      rw [List.length_take, List.length_drop]
      omega

section

variable {limit pc : Nat} {code ahead : Bytes} (hlimit : code.length + 255 ≤ limit)
  (h : Stands code pc ahead)

include hlimit h

theorem take_eq {n : Nat} (hn : n ≤ 255) :
    take limit code pc n = .ok ((Bytes.split? n ahead).map fun f => (f.1, pc + n)) := by
  have hwithin := h.within
  have hlength : ahead.length = code.length - pc := by rw [← h.drop_eq, List.length_drop]
  unfold take
  rw [if_neg (by omega), h.drop_eq]
  cases hsplit : Bytes.split? n ahead with
  | none =>
    have hshort : code.length < pc + n := by
      apply Nat.lt_of_not_le
      intro hlong
      have hparts := Bytes.split?_append (ahead.take n) (ahead.drop n)
      rw [List.take_append_drop, List.length_take, Nat.min_eq_left (by omega), hsplit] at hparts
      cases hparts
    rw [if_pos hshort]
    rfl
  | some found =>
    obtain ⟨front, rest⟩ := found
    obtain ⟨rfl, hfront⟩ := Bytes.split?_eq_some hsplit
    rw [List.length_append] at hlength
    rw [if_neg (by omega), List.take_left' hfront]
    rfl

theorem byte_eq :
    byte limit code pc = .ok (match ahead with
      | [] => none
      | b :: _ => some (b, pc + 1)) := by
  unfold byte
  rw [take_eq hlimit h (by decide)]
  cases ahead with
  | nil => rfl
  | cons b rest => rfl

theorem hash_eq :
    hash limit code pc = .ok ((FixedBytes.read? 32 ahead).map fun f => (f.1, pc + 32)) := by
  unfold hash FixedBytes.read?
  rw [take_eq hlimit h (by decide)]
  cases hsplit : Bytes.split? 32 ahead with
  | none => rfl
  | some found =>
    have hfound : FixedBytes.ofBytes? found.1 = some (FixedBytes.ofBytes found.1 : Hash) :=
      if_pos (Bytes.split?_eq_some hsplit).2
    simp only [Option.map_some, bind, Except.bind, hfound]

theorem hashes_eq (n : Nat) :
    hashes limit code n pc =
      .ok ((FixedBytes.readMany? 32 n ahead).map fun f => (f.1, pc + 32 * n)) := by
  induction n generalizing pc ahead with
  | zero => rfl
  | succ n ih =>
    unfold hashes FixedBytes.readMany?
    rw [hash_eq hlimit h]
    cases hread : FixedBytes.read? 32 ahead with
    | none => rfl
    | some found =>
      obtain ⟨x, rest⟩ := found
      simp only [Option.map_some, bind, Except.bind, ih (h.hash hread)]
      cases FixedBytes.readMany? 32 n rest with
      | none => rfl
      | some found =>
        simp only [Option.map_some]
        rw [Nat.mul_succ, Nat.add_comm (32 * n), Nat.add_assoc]

theorem data_eq :
    data limit code pc =
      .ok ((Bytes.readData? ahead).map fun f => (f.1, pc + 1 + f.1.length)) := by
  unfold data
  rw [byte_eq hlimit h]
  cases ahead with
  | nil => rfl
  | cons n rest =>
    have hnext : Stands code (pc + 1) rest := h.byte
    simp only [bind, Except.bind, Bytes.readData?]
    rw [take_eq hlimit hnext (Nat.le_of_lt_succ n.toNat_lt)]
    cases hsplit : Bytes.split? n.toNat rest with
    | none => rfl
    | some found =>
      simp only [Option.map_some]
      rw [(Bytes.split?_eq_some hsplit).2]

/-! ## Instructions and programs -/

/-- By position, an instruction is what it is from the front, and the position behind it is as far
as its size says. -/
theorem instruction_eq :
    instruction limit code pc =
      .ok ((Instruction.read pc ahead).map fun f => (f.1, pc + f.1.size)) := by
  unfold instruction
  rw [byte_eq hlimit h]
  cases ahead with
  | nil => rfl
  | cons b bytes =>
    have hnext : Stands code (pc + 1) bytes := h.byte
    simp only [bind, Except.bind, Instruction.read]
    cases Opcode.ofByte? b with
    | none => rfl
    | some op =>
      cases op with
      | stop => rfl
      | revert => rfl
      | store =>
        simp only [hash_eq hlimit hnext]
        cases hkey : FixedBytes.read? 32 bytes with
        | none => rfl
        | some found =>
          obtain ⟨key, afterKey⟩ := found
          simp only [Option.map_some, hash_eq hlimit (hnext.hash hkey)]
          cases FixedBytes.read? 32 afterKey with
          | none => rfl
          | some found => rfl
      | ret =>
        simp only [data_eq hlimit hnext]
        cases Bytes.readData? bytes with
        | none => rfl
        | some found =>
          have hnext : pc + 1 + 1 + found.1.length = pc + (2 + found.1.length) := by omega
          simp only [Option.map_some, Except.map, Instruction.size, hnext]
      | log =>
        rw [byte_eq hlimit hnext]
        cases bytes with
        | nil => rfl
        | cons n afterCount =>
          have hcount : Stands code (pc + 1 + 1) afterCount := hnext.byte
          simp only
          by_cases hmany : maxLogTopics < n.toNat
          · rw [if_pos hmany, if_pos hmany]
            rfl
          · rw [if_neg hmany, if_neg hmany, hashes_eq hlimit hcount]
            cases htopics : FixedBytes.readMany? 32 n.toNat afterCount with
            | none => rfl
            | some found =>
              obtain ⟨topics, afterTopics⟩ := found
              simp only [Option.map_some, data_eq hlimit (hcount.hashes htopics)]
              cases Bytes.readData? afterTopics with
              | none => rfl
              | some found =>
                have hlength := (FixedBytes.length_of_readMany? htopics).2
                have hnext : pc + 1 + 1 + 32 * n.toNat + 1 + found.1.length =
                    pc + (3 + 32 * topics.length + found.1.length) := by
                  omega
                simp only [Option.map_some, Except.map, Instruction.size, hnext]

end

/-- Behind an instruction the position stands in front of what reading leaves. -/
theorem stands_of_read {pc : Nat} {code ahead rest : Bytes} {i : Instruction}
    (h : Stands code pc ahead) (hread : Instruction.read pc ahead = .ok (i, rest)) :
    Stands code (pc + i.size) rest := by
  rw [(Instruction.read_eq_ok_iff.1 hread).2] at h
  rw [← i.length_encode]
  exact h.advance

/-- By position, what can be reached of a program is what it is from the front. -/
theorem decodeFrom_eq {limit pc : Nat} {code ahead : Bytes} (hlimit : code.length + 255 ≤ limit)
    (h : Stands code pc ahead) :
    decodeFrom limit code pc = .ok (TwinLedger.decodeFrom pc ahead) := by
  unfold decodeFrom
  by_cases hempty : ahead = []
  · rw [if_neg fun hlt => h.lt_length_iff.1 hlt hempty, hempty, decodeFrom_nil]
  · have hlt := h.lt_length_iff.2 hempty
    rw [if_pos hlt, instruction_eq hlimit h]
    cases hread : Instruction.read pc ahead with
    | error e =>
      rw [decodeFrom_of_read_error hempty hread]
      rfl
    | ok found =>
      obtain ⟨i, rest⟩ := found
      have hsize := i.size_pos
      have hnext := stands_of_read h hread
      rw [decodeFrom_of_read hread]
      simp only [Except.map, decodeFrom_eq hlimit hnext]
      rw [if_pos (show pc < pc + i.size by omega)]
      split <;> rfl
termination_by code.length - pc

end Cursor

end TwinLedger
