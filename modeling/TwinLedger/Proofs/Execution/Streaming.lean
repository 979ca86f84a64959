import TwinLedger.Proofs.Execution.Totality

/-!
# Running bytes and running what they decode to

The interpreter takes no note of a program. It reads an instruction, carries it out, and only then
looks at the next bytes, so it may have changed much before it meets a byte that begins no
instruction, or it may have halted for lack of gas long before. Decoding looks at all the bytes
first and leaves out what stands behind an instruction that ends the run. Taken on their own, with
nothing undone and nothing settled, the two still come to the same:

> `interpret_streams`: bytes that do not decode end in an exceptional halt, and all others make the
> changes that their decoded program makes, in the same order, and end as it does with the same gas.

That the changes are the same, and not just the worlds behind them, is said over a tape
(`Store.tape`), on which the loop over the bytes and the run over the decoded program write down
each change as they make it.
-/

namespace TwinLedger

/-- The loop over the bytes ends, and what it has noted down is all that it did to the world. -/
theorem exists_tape_loop (address : Address) (byzantium : Bool) (code : Bytes) (gas : U64)
    (w : World) :
    ∃ made left outcome,
      InPlace.interpret address byzantium code gas w =
        .ok ⟨Change.directAll w made, left, outcome⟩ ∧
      (Store.world.tape w).loop address byzantium (code.length + 1) code gas [] =
        .ok (some ⟨made, left, outcome⟩) := by
  have hsome : ∃ f, InPlace.interpret address byzantium code gas w = .ok f :=
    InPlace.exists_interpret code gas w
  obtain ⟨f, hf⟩ := hsome
  have hworld : Store.world.loop address byzantium (code.length + 1) code gas w = .ok (some f) := by
    rw [Store.loop_world (Nat.lt_succ_self _), hf]
    rfl
  have hview : Store.world.loop address byzantium (code.length + 1) code gas w =
      ((Store.world.tape w).loop address byzantium (code.length + 1) code gas []).map
        (Option.map (Frame.mapStore (Store.world.makeAll w))) :=
    (Store.views_tape Store.world w).loop (code.length + 1) code gas []
  rw [hworld] at hview
  cases htape : (Store.world.tape w).loop address byzantium (code.length + 1) code gas [] with
  | error e =>
    rw [htape] at hview
    cases hview
  | ok ended =>
    rw [htape] at hview
    cases ended with
    | none => cases hview
    | some noted =>
      obtain ⟨made, left, outcome⟩ := noted
      refine ⟨made, left, outcome, ?_, rfl⟩
      rw [hf]
      exact congrArg Except.ok (Option.some.inj (Except.ok.inj hview))

/-- The interpreter, on its own, against decoding and then running what was decoded. Both make the
same changes in the same order, and end alike with the same gas left: in an exceptional halt exactly
where the gas falls short or the program reverts under rules that do not know it. Bytes that do not
decode always end in one. The loop over the bytes is the interpreter; more passes than there are
bytes are never needed, since each pass that does not end the run takes at least one of them. -/
theorem interpret_streams (address : Address) (byzantium : Bool) (code : Bytes) (gas : U64)
    (w : World) :
    (∃ made left outcome,
      InPlace.interpret address byzantium code gas w =
        .ok ⟨Change.directAll w made, left, outcome⟩ ∧
      (∀ more,
        Store.world.loop address byzantium (code.length + 1 + more) code gas w =
          .ok (some ⟨Change.directAll w made, left, outcome⟩) ∧
        (Store.world.tape w).loop address byzantium (code.length + 1 + more) code gas [] =
          .ok (some ⟨made, left, outcome⟩)) ∧
      match decode code with
      | .error _ => outcome = .error .exceptional
      | .ok program =>
        Buffered.execute w address byzantium program gas {} =
          .ok ⟨Change.bufferAll w {} made, left, outcome⟩ ∧
        ((Store.buffered w).tape {}).run address byzantium program gas [] =
          .ok ⟨made, left, outcome⟩ ∧
        (outcome = .error .exceptional ↔
          (Store.buffered w).FallsShort address byzantium program gas {})) ∧
    ∀ (ahead rest : Bytes) (before left : U64) (v v' : World),
      Store.world.pass address byzantium ahead before v = .ok (.onward rest left v') →
      rest.length < ahead.length := by
  refine ⟨?_, fun _ _ _ _ _ _ hpass => Store.length_of_pass hpass⟩
  obtain ⟨made, left, outcome, hinterpret, hloop⟩ := exists_tape_loop address byzantium code gas w
  refine ⟨made, left, outcome, hinterpret, fun more => ⟨?_, Store.loop_add hloop more⟩, ?_⟩
  · have hpasses : code.length < code.length + 1 + more := by omega
    rw [Store.loop_world hpasses, hinterpret]
    rfl
  cases hdecode : decode code with
  | error e =>
    obtain ⟨f, hf, hhalts, -⟩ := InPlace.interpret_of_decode_error hdecode gas w
    rw [hinterpret] at hf
    cases hf
    exact hhalts
  | ok program =>
    -- What is noted down over the world is noted down over the write set that stands for it.
    have htape : Store.world.tape w = (Store.buffered w).tape {} := by
      have hview := (Store.views_commit w).tape_eq {}
      rwa [WriteSet.commit_empty] at hview
    have hrun : ((Store.buffered w).tape {}).run address byzantium program gas [] =
        .ok ⟨made, left, outcome⟩ := by
      rw [Store.loop_of_spells (decodeFrom_eq_ok_iff.1 hdecode) (Nat.le_refl _), htape] at hloop
      cases hnoted : ((Store.buffered w).tape {}).run address byzantium program gas [] with
      | error e =>
        rw [hnoted] at hloop
        cases hloop
      | ok noted =>
        rw [hnoted] at hloop
        cases hloop
        rfl
    have hbuffered : (Store.buffered w).run address byzantium program gas {} =
        .ok ⟨Change.bufferAll w {} made, left, outcome⟩ := by
      have hview : (Store.buffered w).run address byzantium program gas {} =
          (((Store.buffered w).tape {}).run address byzantium program gas []).map
            (Frame.mapStore ((Store.buffered w).makeAll {})) :=
        (Store.views_tape (Store.buffered w) {}).run program gas []
      rw [hview, hrun]
      rfl
    refine ⟨?_, hrun, Store.halts_iff_fallsShort hbuffered⟩
    rw [← Store.run_buffered, hbuffered]

/-- A slot is written, a log added and a byte returned, and there is a byte more, which is no
opcode. -/
def sampleCode : Bytes := Instruction.encode (.store 1 2) ++ [2, 0, 1, 7, 3, 1, 9, 0xaa]

/-- The last byte of the sample is never come to. -/
theorem interpret_streams_sampleCode :
    InPlace.interpret 7 true sampleCode 100000 {} =
      .ok ⟨Change.directAll {} [.setStorage 7 1 2, .addRefund 0,
        .addLog { address := 7, topics := [], data := [7] }], 79608, .ok [9]⟩ ∧
    ∃ left v,
      Store.world.pass 7 true sampleCode 100000 {} = .ok (.onward (sampleCode.drop 65) left v) ∧
      (sampleCode.drop 65).length < sampleCode.length := by
  obtain ⟨⟨made, left, outcome, hinterpret, hloop, -⟩, htakes⟩ :=
    interpret_streams 7 true sampleCode 100000 {}
  have hnoted : (Store.world.tape {}).loop 7 true (sampleCode.length + 1) sampleCode 100000 [] =
      .ok (some ⟨[.setStorage 7 1 2, .addRefund 0,
        .addLog { address := 7, topics := [], data := [7] }], 79608, .ok [9]⟩) := rfl
  cases (hloop 0).2.symm.trans hnoted
  have hstored : ∃ left v, Store.world.pass 7 true sampleCode 100000 {} =
      .ok (.onward (sampleCode.drop 65) left v) := ⟨_, _, rfl⟩
  obtain ⟨left, v, hpass⟩ := hstored
  exact ⟨hinterpret, left, v, hpass, htakes _ _ _ _ _ _ hpass⟩

end TwinLedger
