import TwinLedger.Proofs.Execution.Ledger
import TwinLedger.Proofs.Execution.Totality
import TwinLedger.Proofs.Program.Cursor

/-!
# Nothing leaves its range

Two kinds of sums are not checked where they are made: those of gas, nonces and balances, which
an earlier check or an invariant of the run keeps in range, and the positions in a program, which
the length of the code does. For the first kind every message has an answer from either executor
(`InPlace.exists_apply`). For the second, a program that is run by position does what it does when
run from the front:

> `Cursor.interpret_eq`: whatever the code, no read leaves it, and the run ends as it would.
-/

namespace TwinLedger

namespace Cursor

/-- Runs the rest of a program from a position on. -/
def interpret (limit : Nat) (address : Address) (byzantium : Bool) (code : Bytes) (pc : Nat)
    (gas : U64) (w : World) : Checked (Frame World) :=
  if pc < code.length then
    match instruction limit code pc with
    | .error fault => .error fault
    | .ok (.error _) => .ok (.failure w gas .exceptional)
    | .ok (.ok (i, next)) =>
      if pc < next then
        InPlace.perform address byzantium i gas w fun left v =>
          interpret limit address byzantium code next left v
      else .error .overflow
  else .ok (.success w gas [])
termination_by code.length - pc

/-- By position, a run goes as from the front. -/
theorem interpret_eq {limit pc : Nat} {code ahead : Bytes} (hlimit : code.length + 255 ≤ limit)
    (h : Stands code pc ahead) (address : Address) (byzantium : Bool) (gas : U64) (w : World) :
    interpret limit address byzantium code pc gas w =
      InPlace.interpret address byzantium ahead gas w := by
  unfold interpret
  by_cases hempty : ahead = []
  · rw [if_neg fun hlt => h.lt_length_iff.1 hlt hempty, hempty, InPlace.interpret_nil]
  · have hlt := h.lt_length_iff.2 hempty
    rw [if_pos hlt, instruction_eq hlimit h]
    cases hread : Instruction.read pc ahead with
    | error e =>
      rw [InPlace.interpret_of_read_error hempty hread]
      rfl
    | ok found =>
      obtain ⟨i, rest⟩ := found
      have hsize := i.size_pos
      have hnext := stands_of_read h hread
      rw [InPlace.interpret_of_read hread]
      simp only [Except.map, interpret_eq hlimit hnext]
      rw [if_pos (show pc < pc + i.size by omega)]
termination_by code.length - pc

end Cursor

/-- For a message whose data is not so long that its deposit leaves the range of a word, neither
executor meets a sum that leaves its range, whatever the world, its refund counter and its code.
Nor does a read of a program: in code of any bytes and any length that fits the counter, the reads
of a run and of the decoder take bytes of the code only. -/
theorem apply_stays_in_range (ctx : BlockContext) (m : Message) (w : World) (pool : GasPool)
    (hdata : Gas.codeByte * m.data.length < Word.range 64) :
    (∀ seat, ∃ x, Executors.stock.at seat ctx m w pool = .ok x) ∧
    ∀ (limit : Nat) (code : Bytes), code.length + 255 ≤ limit →
      (∀ address byzantium gas v, ∃ f,
        Cursor.interpret limit address byzantium code 0 gas v = .ok f ∧
        InPlace.interpret address byzantium code gas v = .ok f) ∧
      Cursor.decodeFrom limit code 0 = .ok (decode code) ∧
      ∀ pc n bytes next, Cursor.take limit code pc n = .ok (some (bytes, next)) →
        next = pc + n ∧ next ≤ code.length ∧ bytes.length = n := by
  refine ⟨fun seat => ?_, fun limit code hlimit => ⟨?_, ?_, ?_⟩⟩
  · rw [Executors.stock_at]
    exact InPlace.exists_apply hdata ctx w pool
  · intro address byzantium gas v
    obtain ⟨f, hf⟩ := InPlace.exists_interpret code gas v
    refine ⟨f, ?_, hf⟩
    rw [Cursor.interpret_eq hlimit (Stands.start code), hf]
  · exact Cursor.decodeFrom_eq hlimit (Stands.start code)
  · intro pc n bytes next hread
    exact Cursor.within_of_take hread

/-- A call that earns a refund while the counter is full, and a program that is cut off behind its
first byte. -/
theorem apply_stays_in_range_full_counter :
    Gas.codeByte * (sampleMessage 17 60000).data.length < Word.range 64 ∧
    (∀ seat, ∃ x, Executors.stock.at seat (sampleContext 19) (sampleMessage 17 60000)
      { sampleWorld with refund := .max } ⟨100000⟩ = .ok x) ∧
    ([Opcode.store.toByte] : Bytes).length + 255 ≤ Word.range 64 - 1 ∧
    Cursor.decodeFrom (Word.range 64 - 1) [Opcode.store.toByte] 0 =
      .ok (.error (.truncated 0)) := by
  have hdata : Gas.codeByte * (sampleMessage 17 60000).data.length < Word.range 64 := by decide
  have hlimit : ([Opcode.store.toByte] : Bytes).length + 255 ≤ Word.range 64 - 1 := by decide
  obtain ⟨hanswers, hreads⟩ := apply_stays_in_range (sampleContext 19) (sampleMessage 17 60000)
    { sampleWorld with refund := .max } ⟨100000⟩ hdata
  have hdecode : decode [Opcode.store.toByte] = .error (.truncated 0) :=
    decodeFrom_of_read_error (List.cons_ne_nil _ _) rfl
  refine ⟨hdata, hanswers, hlimit, ?_⟩
  rw [(hreads _ _ hlimit).2.1, hdecode]

end TwinLedger
