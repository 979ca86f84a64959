import TwinLedger.Proofs.Execution.Settlement

/-!
# Every message has an answer

Sums that the program believes to fit are checked, and one that does not fit would end the whole
computation. None does, as long as the data of the message is not so long that its deposit leaves
the range of a word:

> `exists_apply`: a message with such data is applied, and the result is a result or a rejection.

What a program costs is bounded by its encoding, whatever its bytes are, and everything about the
gas of a message stays within its gas limit, whatever the refund counter says.
-/

namespace TwinLedger

/-- Data of which the deposit fits is also short enough for the price of any precompiled
contract. -/
theorem Precompile.exists_gasCost (p : Precompile) {input : Bytes}
    (h : Gas.codeByte * input.length < Word.range 64) : ∃ cost, p.gasCost input = .ok cost := by
  have hrange : Word.range 64 = 18446744073709551616 := rfl
  have hround : input.length + 31 < Word.range 64 := by
    simp only [Gas.codeByte] at h
    omega
  have hwords : Gas.words input.length = .ok (Word.div ⟨input.length + 31, hround⟩ 32) := by
    have hchecked : Word.checked (input.length + 31) = .ok ⟨input.length + 31, hround⟩ :=
      dif_pos hround
    unfold Gas.words
    rw [hchecked]
    rfl
  cases p <;>
  · unfold gasCost Gas.linear
    rw [hwords]
    exact ⟨_, rfl⟩

namespace InPlace

variable {address : Address} {byzantium : Bool}

/-- An instruction that fits its encoding is performed, if what follows it is. -/
theorem exists_perform {i : Instruction} (hwf : i.WellFormed) (gas : U64) (w : World)
    {next : U64 → World → Checked (Frame World)} (hnext : ∀ left v, ∃ f, next left v = .ok f) :
    ∃ f, perform address byzantium i gas w next = .ok f := by
  by_cases hknown : i ≠ .revert ∨ byzantium = true
  · obtain ⟨cost, hcost⟩ := exists_price hwf address w
    rw [perform_eq hknown, hcost]
    simp only [bind, Except.bind]
    cases gas.sub? cost with
    | none => exact ⟨_, rfl⟩
    | some left =>
      simp only [follow]
      cases ending? i with
      | none => exact hnext left _
      | some outcome => exact ⟨_, rfl⟩
  · rw [not_or, Decidable.not_not, Bool.not_eq_true] at hknown
    rw [hknown.1, hknown.2, perform_revert]
    exact ⟨_, rfl⟩

/-- Any bytes at all can be run. -/
theorem exists_interpret (code : Bytes) (gas : U64) (w : World) :
    ∃ f, interpret address byzantium code gas w = .ok f := by
  by_cases hempty : code = []
  · rw [hempty, interpret_nil]
    exact ⟨_, rfl⟩
  · cases hread : Instruction.read 0 code with
    | error e =>
      rw [interpret_of_read_error hempty hread]
      exact ⟨_, rfl⟩
    | ok pair =>
      obtain ⟨i, rest⟩ := pair
      rw [interpret_of_read hread]
      exact exists_perform (Instruction.wellFormed_of_read hread) gas w
        fun left v => exists_interpret rest left v
termination_by code.length
decreasing_by
  have := Instruction.length_of_read ‹_›
  have := Instruction.size_pos ‹_›
  omega

variable {m : Message} (hdata : Gas.codeByte * m.data.length < Word.range 64)

include hdata

theorem exists_call (ctx : BlockContext) (target : Address) (w : World) (gas : U64) :
    ∃ f, call ctx m target w gas = .ok f := by
  have henter : ∃ f, enter ctx m target gas (Precompile.at? target) (callWorld m target w) =
      .ok f := by
    unfold enter
    cases Precompile.at? target with
    | none => exact exists_interpret _ _ _
    | some p =>
      obtain ⟨cost, hcost⟩ := p.exists_gasCost hdata
      simp only [hcost, bind, Except.bind]
      cases gas.sub? cost <;> exact ⟨_, rfl⟩
  obtain ⟨f, hf⟩ := henter
  rw [call_eq, hf]
  split
  · exact ⟨_, rfl⟩
  · exact ⟨_, rfl⟩

theorem exists_create (ctx : BlockContext) (nonce : U64) (w : World) (gas : U64) :
    ∃ f, create ctx m nonce w gas = .ok f := by
  have hdeposit : Gas.deposit m.data.length = .ok ⟨Gas.codeByte * m.data.length, hdata⟩ :=
    dif_pos hdata
  unfold create
  simp only [hdeposit, bind, Except.bind]
  split
  · exact ⟨_, rfl⟩
  · split
    · exact ⟨_, rfl⟩
    · exact ⟨_, rfl⟩

/-- Every message whose data is not too long is applied. -/
theorem exists_apply (ctx : BlockContext) (w : World) (pool : GasPool) :
    ∃ x, apply ctx m w pool = .ok x := by
  cases hadmission : admission ctx m w pool with
  | error e => exact ⟨_, apply_eq_ok_iff.2 (Or.inl ⟨e, hadmission, rfl⟩)⟩
  | ok a =>
    have henact : ∃ f, enact ctx m (w.nonce m.sender) (a.world m w) (a.gas m) = .ok f := by
      unfold enact
      cases m.recipient with
      | none => exact exists_create hdata ctx _ _ _
      | some target => exact exists_call hdata ctx target _ _
    obtain ⟨f, hf⟩ := henact
    obtain ⟨x, hsettled⟩ := exists_settled hadmission hf
    exact ⟨x, apply_eq_ok_iff.2 (Or.inr ⟨a, f, hsettled⟩)⟩

end InPlace

end TwinLedger
