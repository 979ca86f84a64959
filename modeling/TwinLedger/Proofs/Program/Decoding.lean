import TwinLedger.Proofs.Program.Grammar

/-!
# Code and the programs it spells

One instruction is read exactly in front of its encoding (`Instruction.read_eq_ok_iff`). A program
stands for more than one code, since behind an instruction that ends the run anything may follow.
`Spells` is the grammar:

> the decoder finds exactly the programs that the code spells (`decodeFrom_eq_ok_iff`), and where it
> gives up, it stands behind instructions that it has read, in front of bytes that no instruction
> begins (`stuck_of_decodeFrom_error`).
-/

namespace TwinLedger

namespace Instruction

theorem encodeAll_cons (i : Instruction) (program : List Instruction) :
    encodeAll (i :: program) = i.encode ++ encodeAll program := List.flatMap_cons

theorem encodeAll_singleton (i : Instruction) : encodeAll [i] = i.encode := List.append_nil _

theorem encodeAll_append (before later : List Instruction) :
    encodeAll (before ++ later) = encodeAll before ++ encodeAll later := List.flatMap_append

end Instruction

open Instruction (encodeAll encodeAll_cons encodeAll_singleton encodeAll_append)

/-! ## The grammar -/

/-- The code of a program. -/
inductive Spells : List Instruction → Bytes → Prop where
  | empty : Spells [] []
  | last {i : Instruction} (hfits : i.WellFormed) (hends : i.isTerminal) (rest : Bytes) :
    Spells [i] (i.encode ++ rest)
  | cons {i : Instruction} {later : List Instruction} {code : Bytes} (hfits : i.WellFormed)
    (hgoes : ¬ i.isTerminal) (hlater : Spells later code) :
    Spells (i :: later) (i.encode ++ code)

/-- Instructions that fit their encoding and do not end the run. -/
def GoesOn (program : List Instruction) : Prop := ∀ i ∈ program, i.WellFormed ∧ ¬ i.isTerminal

theorem Spells.append {before later : List Instruction} {code : Bytes} (hbefore : GoesOn before)
    (h : Spells later code) : Spells (before ++ later) (encodeAll before ++ code) := by
  induction before with
  | nil => exact h
  | cons i before ih =>
    obtain ⟨⟨hfits, hgoes⟩, hbefore⟩ := List.forall_mem_cons.1 hbefore
    rw [encodeAll_cons, List.append_assoc, List.cons_append]
    exact .cons hfits hgoes (ih hbefore)

/-- A program goes on to the end of its code, or to its last instruction. -/
theorem Spells.split {program : List Instruction} {code : Bytes} (h : Spells program code) :
    GoesOn program ∧ encodeAll program = code ∨
      ∃ before i, program = before ++ [i] ∧ GoesOn before ∧ i.WellFormed ∧ i.isTerminal ∧
        encodeAll program <+: code := by
  induction h with
  | empty => exact Or.inl ⟨List.forall_mem_nil _, rfl⟩
  | @last i hfits hends rest =>
    refine Or.inr ⟨[], i, rfl, List.forall_mem_nil _, hfits, hends, ?_⟩
    rw [encodeAll_singleton]
    exact List.prefix_append _ _
  | cons hfits hgoes _ ih =>
    -- The first instruction goes on, so the program ends as the rest of it does.
    rw [encodeAll_cons]
    rcases ih with ⟨hgo, heq⟩ | ⟨before, i, rfl, hgo, hi, hends, hprefix⟩
    · exact Or.inl ⟨List.forall_mem_cons.2 ⟨⟨hfits, hgoes⟩, hgo⟩, by rw [heq]⟩
    · have hbefore := List.forall_mem_cons.2 ⟨⟨hfits, hgoes⟩, hgo⟩
      refine Or.inr ⟨_ :: before, i, rfl, hbefore, hi, hends, ?_⟩
      exact (List.prefix_append_right_inj _).2 hprefix

/-- An instruction that ends the run is the last one of its program. -/
theorem Spells.getLast?_of_mem {program : List Instruction} {code : Bytes} {i : Instruction}
    (h : Spells program code) (hi : i ∈ program) (hends : i.isTerminal) :
    program.getLast? = some i := by
  rcases h.split with ⟨hgo, -⟩ | ⟨before, j, rfl, hgo, -, -, -⟩
  · exact absurd hends (hgo i hi).2
  · rcases List.mem_append.1 hi with hbefore | hlast
    · exact absurd hends (hgo i hbefore).2
    · rw [List.mem_singleton.1 hlast, List.getLast?_concat]

/-- The programs of the grammar, said of the whole list of instructions. -/
theorem spells_iff {program : List Instruction} {code : Bytes} :
    Spells program code ↔
      (∀ i ∈ program, i.WellFormed) ∧ (∀ i ∈ program.dropLast, ¬ i.isTerminal) ∧
      ((∃ i, program.getLast? = some i ∧ i.isTerminal ∧ encodeAll program <+: code) ∨
        (∀ i ∈ program, ¬ i.isTerminal) ∧ encodeAll program = code) := by
  constructor
  · intro h
    rcases h.split with ⟨hgo, heq⟩ | ⟨before, i, rfl, hgo, hfits, hends, hprefix⟩
    · have hgoes : ∀ i ∈ program, ¬ i.isTerminal := fun i hi => (hgo i hi).2
      refine ⟨fun i hi => (hgo i hi).1, ?_, Or.inr ⟨hgoes, heq⟩⟩
      exact fun i hi => hgoes i (List.dropLast_subset program hi)
    · rw [List.dropLast_concat]
      refine ⟨?_, fun j hj => (hgo j hj).2, Or.inl ⟨i, List.getLast?_concat, hends, hprefix⟩⟩
      intro j hj
      rcases List.mem_append.1 hj with hj | hj
      · exact (hgo j hj).1
      · exact List.mem_singleton.1 hj ▸ hfits
  · rintro ⟨hfits, hinner, ⟨i, hlast, hends, rest, heq⟩ | ⟨hgo, heq⟩⟩
    · -- With the last instruction taken off, the others are those that go on.
      obtain ⟨before, rfl⟩ := List.getLast?_eq_some_iff.1 hlast
      rw [List.dropLast_concat] at hinner
      have hbefore : GoesOn before :=
        fun j hj => ⟨hfits j (List.mem_append_left _ hj), hinner j hj⟩
      have hi : i.WellFormed := hfits i (List.mem_append_right _ List.mem_cons_self)
      rw [← heq, encodeAll_append, encodeAll_singleton, List.append_assoc]
      exact (Spells.last hi hends rest).append hbefore
    · have hspells := Spells.empty.append fun i hi => ⟨hfits i hi, hgo i hi⟩
      rwa [List.append_nil, List.append_nil, heq] at hspells

/-- Instructions that were read, none of which ends the run, and behind them bytes that no
instruction begins. -/
structure Stuck (before : List Instruction) (rest code : Bytes) : Prop where
  code_eq : code = encodeAll before ++ rest
  goesOn : GoesOn before
  /-- At the end of the code a program ends, so there is more. -/
  rest_ne_nil : rest ≠ []
  faulty : ∀ i : Instruction, i.WellFormed → ¬ i.encode <+: rest

theorem Stuck.cons {i : Instruction} {before : List Instruction} {rest code : Bytes}
    (hfits : i.WellFormed) (hgoes : ¬ i.isTerminal) (h : Stuck before rest code) :
    Stuck (i :: before) rest (i.encode ++ code) where
  code_eq := by rw [encodeAll_cons, List.append_assoc, ← h.code_eq]
  goesOn := List.forall_mem_cons.2 ⟨⟨hfits, hgoes⟩, h.goesOn⟩
  rest_ne_nil := h.rest_ne_nil
  faulty := h.faulty

/-! ## The whole program -/

theorem decodeFrom_nil (offset : Nat) : decodeFrom offset [] = .ok [] := by
  rw [decodeFrom]
  rfl

/-- What is read first is the first instruction, and the last one if it ends the run. -/
theorem decodeFrom_of_read {offset : Nat} {code rest : Bytes} {i : Instruction}
    (h : Instruction.read offset code = .ok (i, rest)) :
    decodeFrom offset code =
      if i.isTerminal then .ok [i] else (decodeFrom (offset + i.size) rest).map (i :: ·) := by
  have hcode : ¬ code.isEmpty := by
    intro hempty
    rw [List.isEmpty_iff.1 hempty] at h
    cases h
  rw [decodeFrom, if_neg hcode]
  split
  · next hread => rw [h] at hread; cases hread
  · next hread =>
    rw [h] at hread
    cases hread
    split
    · rfl
    · cases decodeFrom (offset + i.size) rest with
      | error e => rfl
      | ok program => rfl

theorem decodeFrom_of_read_error {offset : Nat} {code : Bytes} {e : DecodeError} (hcode : code ≠ [])
    (h : Instruction.read offset code = .error e) : decodeFrom offset code = .error e := by
  rw [decodeFrom, if_neg fun hempty => hcode (List.isEmpty_iff.1 hempty)]
  split
  · next hread => rw [h] at hread; cases hread; rfl
  · next hread => rw [h] at hread; cases hread

/-- All that decoding can end in: a program that the code spells, or a fault behind instructions
that were read. -/
theorem decodeFrom_cases (offset : Nat) (code : Bytes) :
    (∃ program, decodeFrom offset code = .ok program ∧ Spells program code) ∨
      ∃ e before rest, decodeFrom offset code = .error e ∧ Stuck before rest code ∧
        e.offset = offset + (encodeAll before).length := by
  by_cases hcode : code = []
  · rw [hcode]
    exact Or.inl ⟨[], decodeFrom_nil offset, .empty⟩
  · cases hread : Instruction.read offset code with
    | error e =>
      refine Or.inr ⟨e, [], code, decodeFrom_of_read_error hcode hread, ?_, ?_⟩
      · exact {
          code_eq := rfl
          goesOn := List.forall_mem_nil _
          rest_ne_nil := hcode
          faulty := fun i hfits => Instruction.not_prefix_of_read_error hread hfits }
      · exact Instruction.offset_of_read_error hread
    | ok r =>
      obtain ⟨i, rest⟩ := r
      obtain ⟨hfits, heq⟩ := Instruction.read_eq_ok_iff.1 hread
      rw [decodeFrom_of_read hread, heq]
      by_cases hends : i.isTerminal
      · rw [if_pos hends]
        exact Or.inl ⟨[i], rfl, .last hfits hends rest⟩
      · -- The rest is shorter, and it spells a program or gets stuck; either is put behind `i`.
        rw [if_neg hends]
        rcases decodeFrom_cases (offset + i.size) rest with
          ⟨later, hlater, hspells⟩ | ⟨e, before, back, hlater, hstuck, hoffset⟩
        · rw [hlater]
          exact Or.inl ⟨i :: later, rfl, .cons hfits hends hspells⟩
        · rw [hlater]
          refine Or.inr ⟨e, i :: before, back, rfl, hstuck.cons hfits hends, ?_⟩
          rw [hoffset, encodeAll_cons, List.length_append, i.length_encode, Nat.add_assoc]
termination_by code.length
decreasing_by
  have := Instruction.length_of_read hread
  have := i.size_pos
  omega

theorem decodeFrom_of_spells {program : List Instruction} {code : Bytes} (h : Spells program code)
    (offset : Nat) : decodeFrom offset code = .ok program := by
  induction h generalizing offset with
  | empty => exact decodeFrom_nil offset
  | last hfits hends rest =>
    rw [decodeFrom_of_read (Instruction.read_encode_append hfits offset rest), if_pos hends]
  | cons hfits hgoes _ ih =>
    rw [decodeFrom_of_read (Instruction.read_encode_append hfits offset _), if_neg hgoes, ih]
    rfl

/-- The decoder finds a program exactly where the code spells it. -/
theorem decodeFrom_eq_ok_iff {offset : Nat} {code : Bytes} {program : List Instruction} :
    decodeFrom offset code = .ok program ↔ Spells program code := by
  constructor
  · intro h
    rcases decodeFrom_cases offset code with ⟨found, hfound, hspells⟩ | ⟨e, _, _, he, -⟩
    · rw [h] at hfound
      cases hfound
      exact hspells
    · rw [h] at he
      cases he
  · intro h
    exact decodeFrom_of_spells h offset

theorem stuck_of_decodeFrom_error {offset : Nat} {code : Bytes} {e : DecodeError}
    (h : decodeFrom offset code = .error e) :
    ∃ before rest, Stuck before rest code ∧ e.offset = offset + (encodeAll before).length := by
  rcases decodeFrom_cases offset code with ⟨found, hfound, -⟩ | ⟨e', before, rest, he, hstuck⟩
  · rw [h] at hfound
    cases hfound
  · rw [h] at he
    cases he
    exact ⟨before, rest, hstuck⟩

/-! ## Decoding against encoding -/

/-- Decoding gives a program exactly where each of its instructions fits its encoding, none but the
last ends the run, and the code is that of the program, with anything behind it if the last one
ends the run. Where decoding fails, the offset is the length of the instructions that it has read,
which are what the code up to there decodes to, and what follows begins with no instruction. One
instruction is decoded from its encoding exactly if it fits. -/
theorem decode_grammar :
    (∀ (code : Bytes) (program : List Instruction), decode code = .ok program ↔
      (∀ i ∈ program, i.WellFormed) ∧ (∀ i ∈ program.dropLast, ¬ i.isTerminal) ∧
      ((∃ i, program.getLast? = some i ∧ i.isTerminal ∧ encodeAll program <+: code) ∨
        (∀ i ∈ program, ¬ i.isTerminal) ∧ encodeAll program = code)) ∧
    (∀ (code : Bytes) (e : DecodeError), decode code = .error e →
      ∃ before, decode (code.take e.offset) = .ok before ∧ (∀ i ∈ before, ¬ i.isTerminal) ∧
        encodeAll before = code.take e.offset ∧ e.offset = (encodeAll before).length ∧
        e.offset < code.length ∧
        ∀ i : Instruction, i.WellFormed → ¬ i.encode <+: code.drop e.offset) ∧
    ∀ i : Instruction, decode i.encode = .ok [i] ↔ i.WellFormed := by
  refine ⟨?_, ?_, ?_⟩
  · intro code program
    rw [decode, decodeFrom_eq_ok_iff, spells_iff]
  · intro code e h
    obtain ⟨before, rest, hstuck, hoffset⟩ := stuck_of_decodeFrom_error h
    rw [Nat.zero_add] at hoffset
    have htake : code.take e.offset = encodeAll before := by
      rw [hstuck.code_eq, hoffset, List.take_left]
    have hdrop : code.drop e.offset = rest := by
      rw [hstuck.code_eq, hoffset, List.drop_left]
    have hmore : e.offset < code.length := by
      have hpos := List.length_pos_iff.2 hstuck.rest_ne_nil
      rw [hstuck.code_eq, hoffset, List.length_append]
      omega
    have hbefore : decode (encodeAll before) = .ok before := by
      have hspells := Spells.empty.append hstuck.goesOn
      rw [List.append_nil, List.append_nil] at hspells
      exact decodeFrom_of_spells hspells 0
    rw [htake, hdrop]
    exact ⟨before, hbefore, fun i hi => (hstuck.goesOn i hi).2, rfl, hoffset, hmore, hstuck.faulty⟩
  · intro i
    rw [decode, decodeFrom_eq_ok_iff]
    constructor
    · intro h
      exact (spells_iff.1 h).1 i List.mem_cons_self
    · intro hfits
      rw [← List.append_nil i.encode]
      by_cases hends : i.isTerminal
      · exact .last hfits hends []
      · exact .cons hfits hends .empty

/-- A log, and behind it a byte that is no opcode: the fault is found behind the log, where no log
begins. -/
theorem decode_grammar_behind_log :
    decode [0x02, 0, 1, 7, 0xaa] = .error (.unknownOpcode 4 0xaa) ∧
    (∃ before, decode [0x02, 0, 1, 7] = .ok before ∧ encodeAll before = [0x02, 0, 1, 7] ∧
      (Instruction.log [] [7]).WellFormed ∧ ¬ (Instruction.log [] [7]).encode <+: [0xaa]) ∧
    decode (Instruction.log [] [7]).encode = .ok [.log [] [7]] := by
  obtain ⟨-, hfault, hone⟩ := decode_grammar
  have hfits : (Instruction.log [] [7]).WellFormed := ⟨by decide, by decide⟩
  have herror : decode [0x02, 0, 1, 7, 0xaa] = .error (.unknownOpcode 4 0xaa) := by
    show decodeFrom 0 ((Instruction.log [] [7]).encode ++ [0xaa]) = _
    rw [decodeFrom_of_read (Instruction.read_encode_append hfits 0 [0xaa]),
      decodeFrom_of_read_error (List.cons_ne_nil _ _) rfl]
    rfl
  obtain ⟨before, hbefore, -, hcode, -, -, hfaulty⟩ := hfault _ _ herror
  exact ⟨herror, ⟨before, hbefore, hcode, hfits, hfaulty _ hfits⟩, (hone _).2 hfits⟩

end TwinLedger
