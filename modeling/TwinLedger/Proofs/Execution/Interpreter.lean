import TwinLedger.Execution.InPlace
import TwinLedger.Proofs.Program.Grammar
import TwinLedger.Proofs.World.Writes

/-!
# Running a program while reading it

`InPlace.interpret` takes up an instruction as soon as it has read it, and finds out that the bytes
are no program only where it gets stuck. Decoding first and running afterwards looks at the bytes
in another order, so the two have to be brought together once, here. The middle ground is
`execute`, which runs decoded instructions on the world itself:

> bytes that decode are run as the instructions they decode to (`interpret_of_decode`), and
> bytes that do not decode end in an exceptional halt, whatever was run before the fault was met
> (`interpret_of_decode_error`).

The one step behind both is `interpret_of_read`: what is read from the front of the bytes is
performed, and the interpreter goes on with the bytes behind it.
-/

namespace TwinLedger

namespace InPlace

/-- One instruction. What is left to do goes on with the gas left and the world after it. -/
def perform (address : Address) (byzantium : Bool) (i : Instruction) (gas : U64) (w : World)
    (next : U64 → World → Checked (Frame World)) : Checked (Frame World) :=
  match i with
  | .stop =>
    match gas.sub? Gas.bareInstruction with
    | none => .ok (.failure w gas .exceptional)
    | some left => .ok (.success w left [])
  | .store key value => do
    let charge := Gas.storageCharge (w.storage address key).isZero value.isZero
    let cost ← Gas.instruction charge.cost
    match gas.sub? cost with
    | none => .ok (.failure w gas .exceptional)
    | some left => next left ((w.setStorage address key value).addRefund charge.refund)
  | .log topics data => do
    let logCost ← Gas.logCost topics.length data.length
    let cost ← Gas.instruction logCost
    match gas.sub? cost with
    | none => .ok (.failure w gas .exceptional)
    | some left => next left (w.addLog { address, topics, data })
  | .ret data =>
    match gas.sub? Gas.bareInstruction with
    | none => .ok (.failure w gas .exceptional)
    | some left => .ok (.success w left data)
  | .revert =>
    if byzantium then
      match gas.sub? Gas.bareInstruction with
      | none => .ok (.failure w gas .exceptional)
      | some left => .ok (.failure w left .revert)
    else .ok (.failure w gas .exceptional)

/-- What an instruction costs in a world, its being taken up included. -/
def price (address : Address) (w : World) : Instruction → Checked U64
  | .store key value =>
    Gas.instruction (Gas.storageCharge (w.storage address key).isZero value.isZero).cost
  | .log topics data => Gas.logCost topics.length data.length >>= Gas.instruction
  | .stop | .ret _ | .revert => .ok Gas.bareInstruction

/-- The world after an instruction that has been paid for. -/
def effect (address : Address) (w : World) : Instruction → World
  | .store key value =>
    (w.setStorage address key value).addRefund
      (Gas.storageCharge (w.storage address key).isZero value.isZero).refund
  | .log topics data => w.addLog { address, topics, data }
  | .stop | .ret _ | .revert => w

/-- How the run ends with an instruction, if it does. -/
def ending? : Instruction → Option (Except Halt Bytes)
  | .stop => some (.ok [])
  | .ret data => some (.ok data)
  | .revert => some (.error .revert)
  | .store _ _ | .log _ _ => none

/-- An instruction that has been paid for, with the given gas left: it ends the run, or what is left
to do goes on behind it. -/
def follow (address : Address) (i : Instruction) (left : U64) (w : World)
    (next : U64 → World → Checked (Frame World)) : Checked (Frame World) :=
  match ending? i with
  | some outcome => .ok ⟨effect address w i, left, outcome⟩
  | none => next left (effect address w i)

/-- Runs decoded instructions on the world. -/
def execute (address : Address) (byzantium : Bool) :
    List Instruction → U64 → World → Checked (Frame World)
  | [], gas, w => .ok (.success w gas [])
  | i :: rest, gas, w => perform address byzantium i gas w (execute address byzantium rest)

variable {address : Address} {byzantium : Bool}

/-- After a terminal instruction nothing is left to do. -/
theorem perform_of_isTerminal {i : Instruction} (h : i.isTerminal) (gas : U64) (w : World)
    (next next' : U64 → World → Checked (Frame World)) :
    perform address byzantium i gas w next = perform address byzantium i gas w next' := by
  cases i with
  | store key value => cases h
  | log topics data => cases h
  | stop => rfl
  | ret data => rfl
  | revert => rfl

/-- An instruction that is performed is paid for first. -/
theorem perform_eq {i : Instruction} (h : i ≠ .revert ∨ byzantium = true) (gas : U64) (w : World)
    (next : U64 → World → Checked (Frame World)) :
    perform address byzantium i gas w next =
      price address w i >>= fun cost =>
        match gas.sub? cost with
        | none => .ok (.failure w gas .exceptional)
        | some left => follow address i left w next := by
  cases i with
  | stop => rfl
  | store key value => rfl
  | ret data => rfl
  | log topics data =>
    simp only [perform, price, bind, Except.bind]
    cases Gas.logCost topics.length data.length with
    | error e => rfl
    | ok logCost => rfl
  | revert =>
    have hbyzantium : byzantium = true := h.resolve_left fun hne => hne rfl
    rw [hbyzantium]
    rfl

/-- Before Byzantium no program reverts. -/
theorem perform_revert (gas : U64) (w : World) (next : U64 → World → Checked (Frame World)) :
    perform address false .revert gas w next = .ok (.failure w gas .exceptional) := rfl

/-- An instruction halts the run and nothing is written, or it is paid for. -/
theorem perform_inv {i : Instruction} {gas : U64} {w : World}
    {next : U64 → World → Checked (Frame World)} {f : Frame World}
    (h : perform address byzantium i gas w next = .ok f) :
    f = .failure w gas .exceptional ∨
      ∃ cost left, price address w i = .ok cost ∧ gas.sub? cost = some left ∧
        (i = .revert → byzantium = true) ∧ follow address i left w next = .ok f := by
  by_cases hi : i ≠ .revert ∨ byzantium = true
  · rw [perform_eq hi] at h
    obtain ⟨cost, hcost, hpaid⟩ := exists_of_bind h
    cases hleft : gas.sub? cost with
    | none =>
      rw [hleft] at hpaid
      exact Or.inl (Except.ok.inj hpaid).symm
    | some left =>
      rw [hleft] at hpaid
      exact Or.inr ⟨cost, left, hcost, hleft, fun hrevert => hi.resolve_left fun hne => hne hrevert,
        hpaid⟩
  · rw [not_or, Decidable.not_not, Bool.not_eq_true] at hi
    rw [hi.1, hi.2, perform_revert] at h
    exact Or.inl (Except.ok.inj h).symm

/-! ## One instruction read -/

theorem interpret_nil (gas : U64) (w : World) :
    interpret address byzantium [] gas w = .ok (.success w gas []) := by
  rw [interpret]

/-- What is read from the front of the bytes is performed, and the rest goes on behind it. -/
theorem interpret_of_read {offset : Nat} {code rest : Bytes} {i : Instruction}
    (h : Instruction.read offset code = .ok (i, rest)) (gas : U64) (w : World) :
    interpret address byzantium code gas w =
      perform address byzantium i gas w (interpret address byzantium rest) := by
  cases code with
  | nil => simp [Instruction.read] at h
  | cons b bytes =>
    simp only [Instruction.read] at h
    rw [interpret.eq_def]
    cases hop : Opcode.ofByte? b with
    | none => simp [hop] at h
    | some op =>
      cases op with
      | stop =>
        simp only [hop] at h ⊢
        cases h
        rfl
      | revert =>
        simp only [hop] at h ⊢
        cases h
        rfl
      | store =>
        simp only [hop] at h ⊢
        split at h
        · cases h
        · next key afterKey hkey =>
          split at h
          · next value afterValue hvalue =>
            cases h
            -- The interpreter keeps a proof of each read, so its reads are split and not rewritten.
            split
            · next hnone => rw [hkey] at hnone; cases hnone
            · next hkey' =>
              rw [hkey] at hkey'
              cases hkey'
              split
              · next hnone => rw [hvalue] at hnone; cases hnone
              · next hvalue' =>
                rw [hvalue] at hvalue'
                cases hvalue'
                rfl
          · cases h
      | ret =>
        simp only [hop] at h ⊢
        cases bytes with
        | nil => simp [Bytes.readData?] at h
        | cons length afterLength =>
          simp only [Bytes.readData?] at h
          split at h
          · next data afterData hdata =>
            cases h
            simp only [hdata]
            rfl
          · cases h
      | log =>
        simp only [hop] at h ⊢
        cases bytes with
        | nil => cases h
        | cons n afterCount =>
          simp only at h ⊢
          split at h
          · cases h
          · next hcount =>
            rw [if_neg hcount]
            split at h
            · cases h
            · next topics afterTopics htopics =>
              cases afterTopics with
              | nil => cases h
              | cons length afterLength =>
                simp only [Bytes.readData?] at h
                split at h
                · next data afterData hdata =>
                  cases h
                  split
                  · next hnone => rw [htopics] at hnone; cases hnone
                  · next hnil => rw [htopics] at hnil; cases hnil
                  · next htopics' =>
                    rw [htopics] at htopics'
                    cases htopics'
                    split
                    · next hnone => rw [hdata] at hnone; cases hnone
                    · next hdata' =>
                      rw [hdata] at hdata'
                      cases hdata'
                      rfl
                · cases h

/-- Bytes from which no instruction can be read halt the run at once. -/
theorem interpret_of_read_error {offset : Nat} {code : Bytes} {e : DecodeError} (hcode : code ≠ [])
    (h : Instruction.read offset code = .error e) (gas : U64) (w : World) :
    interpret address byzantium code gas w = .ok (.failure w gas .exceptional) := by
  cases code with
  | nil => exact absurd rfl hcode
  | cons b bytes =>
    simp only [Instruction.read] at h
    rw [interpret.eq_def]
    cases hop : Opcode.ofByte? b with
    | none => simp only [hop]
    | some op =>
      cases op with
      | stop => simp [hop] at h
      | revert => simp [hop] at h
      | store =>
        simp only [hop] at h ⊢
        split
        · rfl
        · next key afterKey hkey =>
          split
          · rfl
          · next hvalue => simp [hkey, hvalue] at h
      | ret =>
        simp only [hop] at h ⊢
        cases bytes with
        | nil => rfl
        | cons length afterLength =>
          simp only [Bytes.readData?] at h ⊢
          split at h
          · cases h
          · next hdata => rw [hdata]
      | log =>
        simp only [hop] at h ⊢
        cases bytes with
        | nil => rfl
        | cons n afterCount =>
          simp only at h ⊢
          split
          · rfl
          · next hcount =>
            rw [if_neg hcount] at h
            split
            · rfl
            · rfl
            · next htopics =>
              split
              · rfl
              · next hdata => simp [htopics, Bytes.readData?, hdata] at h

/-! ## The whole program -/

/-- Bytes that decode are run as the instructions they decode to. -/
theorem interpret_of_decode {offset : Nat} {code : Bytes} {program : List Instruction}
    (h : decodeFrom offset code = .ok program) (gas : U64) (w : World) :
    interpret address byzantium code gas w = execute address byzantium program gas w := by
  unfold decodeFrom at h
  split at h
  · next hempty =>
    cases h
    rw [List.isEmpty_iff.1 hempty, interpret_nil]
    rfl
  · split at h
    · cases h
    · next i rest hread =>
      rw [interpret_of_read hread]
      split at h
      · next hterminal =>
        cases h
        -- The bytes behind it may be anything, no run gets there.
        exact perform_of_isTerminal hterminal gas w _ _
      · split at h
        · cases h
        · next later hlater =>
          cases h
          have hnext : interpret address byzantium rest = execute address byzantium later :=
            funext fun left => funext fun v => interpret_of_decode hlater left v
          rw [hnext]
          rfl
termination_by code.length
decreasing_by
  have := Instruction.length_of_read ‹_›
  have := Instruction.size_pos ‹_›
  omega

/-- An instruction that fits its encoding has a price. -/
theorem exists_price {i : Instruction} (hwf : i.WellFormed) (address : Address) (w : World) :
    ∃ cost, price address w i = .ok cost := by
  cases i with
  | store key value => exact Gas.exists_storageCost _ _
  | log topics data =>
    obtain ⟨logCost, cost, hlog, hcost⟩ := Gas.exists_logCost hwf.1 hwf.2
    refine ⟨cost, ?_⟩
    rw [price, hlog]
    exact hcost
  | stop => exact ⟨_, rfl⟩
  | ret data => exact ⟨_, rfl⟩
  | revert => exact ⟨_, rfl⟩

/-- What an instruction does to the world is writes. -/
theorem extends_effect (address : Address) (w : World) (i : Instruction) :
    w.Extends (effect address w i) := by
  cases i with
  | store key value => exact ((World.Extends.refl w).setAccount address _).addRefund _
  | log topics data => exact (World.Extends.refl w).addLog _
  | stop => exact .refl w
  | ret data => exact .refl w
  | revert => exact .refl w

/-- An instruction that does not end the run is either not paid for, or it writes to the world and
the run goes on. -/
theorem perform_of_not_isTerminal {i : Instruction} (hterminal : i.isTerminal = false)
    (hwf : i.WellFormed) (gas : U64) (w : World) :
    (∀ next, perform address byzantium i gas w next = .ok (.failure w gas .exceptional)) ∨
      ∃ left v, w.Extends v ∧ ∀ next, perform address byzantium i gas w next = next left v := by
  have hnone : ending? i = none := by
    cases i with
    | store key value => rfl
    | log topics data => rfl
    | stop => cases hterminal
    | ret data => cases hterminal
    | revert => cases hterminal
  have hknown : i ≠ .revert ∨ byzantium = true := by
    left
    rintro rfl
    cases hterminal
  obtain ⟨cost, hcost⟩ := exists_price hwf address w
  simp only [perform_eq hknown, hcost, bind, Except.bind, follow, hnone]
  cases gas.sub? cost with
  | none => exact Or.inl fun _ => rfl
  | some left => exact Or.inr ⟨left, _, extends_effect address w i, fun _ => rfl⟩

/-- Bytes that do not decode halt the run, and all that was done before is writes. -/
theorem interpret_of_decode_error {offset : Nat} {code : Bytes} {e : DecodeError}
    (h : decodeFrom offset code = .error e) (gas : U64) (w : World) :
    ∃ f, interpret address byzantium code gas w = .ok f ∧
      f.outcome = .error .exceptional ∧ w.Extends f.store := by
  unfold decodeFrom at h
  split at h
  · cases h
  · next hcode =>
    split at h
    · next hread =>
      have hne : code ≠ [] := fun he => hcode (List.isEmpty_iff.2 he)
      exact ⟨_, interpret_of_read_error hne hread gas w, rfl, World.Extends.refl w⟩
    · next i rest hread =>
      rw [interpret_of_read hread]
      split at h
      · cases h
      · next hterminal =>
        split at h
        · next hlater =>
          cases h
          -- The fault is further on: what comes before it either is not paid for or only writes.
          rcases perform_of_not_isTerminal (by simpa using hterminal)
            (Instruction.wellFormed_of_read hread) gas w with hstuck | ⟨left, v, hv, hgo⟩
          · exact ⟨_, hstuck _, rfl, World.Extends.refl w⟩
          · obtain ⟨f, hf, hout, hext⟩ := interpret_of_decode_error hlater left v
            exact ⟨f, by rw [hgo, hf], hout, hv.trans hext⟩
        · cases h
termination_by code.length
decreasing_by
  have := Instruction.length_of_read ‹_›
  have := Instruction.size_pos ‹_›
  omega

end InPlace

end TwinLedger
