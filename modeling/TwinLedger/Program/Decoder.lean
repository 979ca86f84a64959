import TwinLedger.Program.Instruction

/-!
# Decoding programs

`decode` reads the instructions that a run can reach: up to the end of the code or to the first
instruction that ends the run. What does not decode is one of three faults, each with the offset
at which the faulty instruction starts.
-/

namespace TwinLedger

/-- Why code does not decode. -/
inductive DecodeError where
  | unknownOpcode (offset : Nat) (opcode : UInt8)
  | truncated (offset : Nat)
  | tooManyTopics (offset topics : Nat)
  deriving DecidableEq

namespace DecodeError

/-- Where the faulty instruction starts. -/
def offset : DecodeError → Nat
  | .unknownOpcode o _ | .truncated o | .tooManyTopics o _ => o

def message : DecodeError → String
  | .unknownOpcode o b => "unknown opcode " ++ Bytes.hex [b] ++ " at offset " ++ toString o
  | .truncated o => "truncated instruction at offset " ++ toString o
  | .tooManyTopics o n => toString n ++ " log topics at offset " ++ toString o

end DecodeError

namespace Bytes

/-- Reads a length byte and as many bytes. -/
def readData? : Bytes → Option (Bytes × Bytes)
  | [] => none
  | n :: rest => split? n.toNat rest

theorem length_of_readData? {bytes data rest : Bytes} (h : readData? bytes = some (data, rest)) :
    bytes.length = 1 + data.length + rest.length := by
  cases bytes with
  | nil => simp [readData?] at h
  | cons n tail =>
    obtain ⟨rfl, hlen⟩ := split?_eq_some h
    simp
    omega

end Bytes

namespace Instruction

/-- Reads one instruction that starts at the given offset, and leaves what is behind it. -/
def read (offset : Nat) : Bytes → Except DecodeError (Instruction × Bytes)
  | [] => .error (.truncated offset)
  | b :: bytes =>
    match Opcode.ofByte? b with
    | none => .error (.unknownOpcode offset b)
    | some .stop => .ok (.stop, bytes)
    | some .revert => .ok (.revert, bytes)
    | some .store =>
      match FixedBytes.read? 32 bytes with
      | none => .error (.truncated offset)
      | some (key, bytes) =>
        match FixedBytes.read? 32 bytes with
        | some (value, rest) => .ok (.store key value, rest)
        | none => .error (.truncated offset)
    | some .ret =>
      match Bytes.readData? bytes with
      | some (data, rest) => .ok (.ret data, rest)
      | none => .error (.truncated offset)
    | some .log =>
      match bytes with
      | [] => .error (.truncated offset)
      | n :: bytes =>
        if maxLogTopics < n.toNat then .error (.tooManyTopics offset n.toNat)
        else
          match FixedBytes.readMany? 32 n.toNat bytes with
          | none => .error (.truncated offset)
          | some (topics, bytes) =>
            match Bytes.readData? bytes with
            | some (data, rest) => .ok (.log topics data, rest)
            | none => .error (.truncated offset)

theorem length_of_read {offset : Nat} {bytes rest : Bytes} {i : Instruction}
    (h : read offset bytes = .ok (i, rest)) : bytes.length = i.size + rest.length := by
  cases bytes with
  | nil => simp [read] at h
  | cons b bytes =>
    simp only [read] at h
    split at h
    · cases h
    · cases h
      simp [size, Nat.add_comm]
    · cases h
      simp [size, Nat.add_comm]
    · split at h
      · cases h
      · next hkey =>
        have := FixedBytes.length_of_read? hkey
        split at h
        · next hvalue =>
          have := FixedBytes.length_of_read? hvalue
          cases h
          simp only [List.length_cons, size]
          omega
        · cases h
    · split at h
      · next hdata =>
        have := Bytes.length_of_readData? hdata
        cases h
        simp only [List.length_cons, size]
        omega
      · cases h
    · split at h
      · cases h
      · split at h
        · cases h
        · split at h
          · cases h
          · next htopics =>
            have := FixedBytes.length_of_readMany? htopics
            split at h
            · next hdata =>
              have := Bytes.length_of_readData? hdata
              cases h
              simp only [List.length_cons, size]
              omega
            · cases h

theorem size_pos (i : Instruction) : 0 < i.size := by
  cases i <;> simp only [size] <;> omega

end Instruction

/-- The instructions of code that starts at the given offset of a program. -/
def decodeFrom (offset : Nat) (code : Bytes) : Except DecodeError (List Instruction) :=
  if code.isEmpty then .ok []
  else
    match _h : Instruction.read offset code with
    | .error e => .error e
    | .ok (i, rest) =>
      if i.isTerminal then .ok [i]
      else
        match decodeFrom (offset + i.size) rest with
        | .error e => .error e
        | .ok program => .ok (i :: program)
termination_by code.length
decreasing_by
  have := Instruction.length_of_read _h
  have := i.size_pos
  omega

/-- The instructions of a program that a run can reach. -/
def decode (code : Bytes) : Except DecodeError (List Instruction) := decodeFrom 0 code

end TwinLedger
