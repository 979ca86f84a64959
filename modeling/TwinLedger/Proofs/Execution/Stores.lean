import TwinLedger.Execution.Buffered
import TwinLedger.Proofs.Execution.Buffering
import TwinLedger.Proofs.Execution.Interpreter
import TwinLedger.Proofs.Program.Decoding

/-!
# Programs over any store

A program reads slots of its account and makes changes, and what it reads from and writes to may be
the world, a write set over a world, or just a list on which every change is noted down. `Store`
says what is asked of such a place. An instruction does the same to each of them: it is paid for by
its price, and then it ends the run or makes its changes (`Store.step`, `Store.step_cases`). The
interpreter is the loop of these steps over the bytes, and the executors of decoded programs are
their run over a list:

> `Store.loop_world`: the loop over the bytes, in as many passes as they need, is the interpreter;
> `Store.run_world` and `Store.run_buffered`: over the world and over a write set, the run of the
> decoded program is what either executor does.

So what is said of all stores is said of both executors: which runs halt (`halts_iff_fallsShort`),
and that the loop over the bytes runs the program that they spell (`loop_of_spells`). Where one
store is a view of another, as the committed world is one of the write set, a run over the one is
the view of the run over the other (`Views.run`, `Views.loop`).
-/

namespace TwinLedger

/-- The frame with its store seen through a function. -/
def Frame.mapStore {σ τ : Type} (g : σ → τ) (f : Frame σ) : Frame τ :=
  ⟨g f.store, f.gas, f.outcome⟩

/-! ## Instructions -/

namespace Instruction

/-- What an instruction costs, its being taken up included, where the slots read as given. -/
def price (slot : Hash → Hash) : Instruction → Checked U64
  | .store key value => Gas.instruction (Gas.storageCharge (slot key).isZero value.isZero).cost
  | .log topics data => Gas.logCost topics.length data.length >>= Gas.instruction
  | .stop | .ret _ | .revert => .ok Gas.bareInstruction

/-- The changes that an instruction makes, in their order. A write to a slot always adds its
refund, also one of nothing. -/
def changes (address : Address) (slot : Hash → Hash) : Instruction → List Change
  | .store key value =>
    [.setStorage address key value,
      .addRefund (Gas.storageCharge (slot key).isZero value.isZero).refund]
  | .log topics data => [.addLog { address, topics, data }]
  | .stop | .ret _ | .revert => []

theorem price_eq (address : Address) (w : World) (i : Instruction) :
    i.price (w.storage address) = InPlace.price address w i := by
  cases i <;> rfl

theorem directAll_changes (address : Address) (w : World) (i : Instruction) :
    Change.directAll w (i.changes address (w.storage address)) = InPlace.effect address w i := by
  cases i <;> rfl

theorem ending?_eq_none_iff (i : Instruction) :
    InPlace.ending? i = none ↔ i.isTerminal = false := by
  cases i <;> simp [InPlace.ending?, isTerminal]

end Instruction

/-! ## Stores -/

/-- What a program reads from and writes to. -/
structure Store (σ : Type) where
  storage : σ → Address → Hash → Hash
  make : σ → Change → σ

/-- How a run stands: it has ended, or something is left to do. -/
inductive Progress (ρ σ : Type) where
  | ended (f : Frame σ)
  | onward (rest : ρ) (gas : U64) (store : σ)

/-- The progress with its store seen through a function. -/
def Progress.mapStore {ρ σ τ : Type} (g : σ → τ) : Progress ρ σ → Progress ρ τ
  | .ended f => .ended (f.mapStore g)
  | .onward rest gas s => .onward rest gas (g s)

namespace Store

variable {ρ σ τ : Type}

def world : Store World := ⟨World.storage, Change.direct⟩

/-- Write sets over a world. -/
def buffered (base : World) : Store WriteSet := ⟨fun ws => ws.storage base, Change.buffer base⟩

/-- Makes changes one after the other. -/
def makeAll (S : Store σ) (s : σ) (made : List Change) : σ := made.foldl S.make s

/-- The changes noted down in the order in which they are made, on top of a store that stays as it
is. What is read has to take account of them. -/
def tape (S : Store σ) (start : σ) : Store (List Change) where
  storage made := S.storage (S.makeAll start made)
  make made c := made ++ [c]

/-- Carries out one instruction, in front of what is left to do. -/
def step (S : Store σ) (address : Address) (byzantium : Bool) (i : Instruction) (rest : ρ)
    (gas : U64) (s : σ) : Checked (Progress ρ σ) :=
  if i = .revert ∧ byzantium = false then .ok (.ended (.failure s gas .exceptional))
  else do
    let cost ← i.price (S.storage s address)
    match gas.sub? cost with
    | none => .ok (.ended (.failure s gas .exceptional))
    | some left =>
      match InPlace.ending? i with
      | some outcome => .ok (.ended ⟨s, left, outcome⟩)
      | none => .ok (.onward rest left (S.makeAll s (i.changes address (S.storage s address))))

/-- Runs decoded instructions. -/
def run (S : Store σ) (address : Address) (byzantium : Bool) :
    List Instruction → U64 → σ → Checked (Frame σ)
  | [], gas, s => .ok (.success s gas [])
  | i :: program, gas, s => do
    match ← S.step address byzantium i () gas s with
    | .ended f => .ok f
    | .onward () left t => S.run address byzantium program left t

/-- One pass of the loop over the bytes: an instruction is read from their front and carried out. -/
def pass (S : Store σ) (address : Address) (byzantium : Bool) (code : Bytes) (gas : U64) (s : σ) :
    Checked (Progress Bytes σ) :=
  if code.isEmpty then .ok (.ended (.success s gas []))
  else
    match Instruction.read 0 code with
    | .error _ => .ok (.ended (.failure s gas .exceptional))
    | .ok (i, rest) => S.step address byzantium i rest gas s

/-- The loop over the bytes, with an answer if it ends within so many passes. -/
def loop (S : Store σ) (address : Address) (byzantium : Bool) :
    Nat → Bytes → U64 → σ → Checked (Option (Frame σ))
  | 0, _, _, _ => .ok none
  | passes + 1, code, gas, s => do
    match ← S.pass address byzantium code gas s with
    | .ended f => .ok (some f)
    | .onward rest left t => S.loop address byzantium passes rest left t

variable {S : Store σ} {address : Address} {byzantium : Bool}

/-- What an instruction does, it does whatever is left to do behind it. -/
theorem step_eq (i : Instruction) (rest : ρ) (gas : U64) (s : σ) :
    S.step address byzantium i rest gas s =
      (S.step address byzantium i () gas s).map fun
        | .ended f => .ended f
        | .onward () left t => .onward rest left t := by
  unfold step
  split
  · rfl
  · cases i.price (S.storage s address) with
    | error e => rfl
    | ok cost =>
      simp only [bind, Except.bind]
      cases gas.sub? cost with
      | none => rfl
      | some left =>
        simp only
        cases InPlace.ending? i with
        | none => rfl
        | some outcome => rfl

/-- The gas is enough for the instruction, and so much of it is left. -/
def Pays (S : Store σ) (address : Address) (i : Instruction) (gas : U64) (s : σ) (left : U64) :
    Prop :=
  ∃ cost, i.price (S.storage s address) = .ok cost ∧ gas.sub? cost = some left

/-- The gas is not enough for the instruction. -/
def LacksGas (S : Store σ) (address : Address) (i : Instruction) (gas : U64) (s : σ) : Prop :=
  ∃ cost, i.price (S.storage s address) = .ok cost ∧ gas < cost

theorem Pays.eq {i : Instruction} {gas left left' : U64} {s : σ} (h : S.Pays address i gas s left)
    (h' : S.Pays address i gas s left') : left = left' := by
  obtain ⟨cost, hcost, hleft⟩ := h
  obtain ⟨cost', hcost', hleft'⟩ := h'
  rw [Except.ok.inj (hcost'.symm.trans hcost)] at hleft'
  exact Option.some.inj (hleft.symm.trans hleft')

theorem Pays.not_lacksGas {i : Instruction} {gas left : U64} {s : σ}
    (h : S.Pays address i gas s left) : ¬ S.LacksGas address i gas s := by
  rintro ⟨cost', hcost', hshort⟩
  obtain ⟨cost, hcost, hleft⟩ := h
  rw [Except.ok.inj (hcost'.symm.trans hcost), ← Word.sub?_eq_none_iff, hleft] at hshort
  cases hshort

/-- An instruction that has an answer halts the run, ends it, or makes its changes and lets the run
go on. -/
theorem step_cases {i : Instruction} {rest : ρ} {gas : U64} {s : σ} {p : Progress ρ σ}
    (h : S.step address byzantium i rest gas s = .ok p) :
    (p = .ended (.failure s gas .exceptional) ∧
      (i = .revert ∧ byzantium = false ∨ S.LacksGas address i gas s)) ∨
    (∃ left outcome, p = .ended ⟨s, left, outcome⟩ ∧ InPlace.ending? i = some outcome ∧
      S.Pays address i gas s left ∧ (i = .revert → byzantium = true)) ∨
    ∃ left, p = .onward rest left (S.makeAll s (i.changes address (S.storage s address))) ∧
      i.isTerminal = false ∧ S.Pays address i gas s left := by
  unfold step at h
  split at h
  · next hunknown =>
    cases h
    exact Or.inl ⟨rfl, Or.inl hunknown⟩
  · next hknown =>
    obtain ⟨cost, hcost, hpaid⟩ := exists_of_bind h
    cases hleft : gas.sub? cost with
    | none =>
      simp only [hleft] at hpaid
      cases hpaid
      exact Or.inl ⟨rfl, Or.inr ⟨cost, hcost, Word.sub?_eq_none_iff.1 hleft⟩⟩
    | some left =>
      simp only [hleft] at hpaid
      cases hending : InPlace.ending? i with
      | some outcome =>
        simp only [hending] at hpaid
        cases hpaid
        have hrevert : i = .revert → byzantium = true := fun hi =>
          (Bool.not_eq_false byzantium).mp fun hbyzantium => hknown ⟨hi, hbyzantium⟩
        exact Or.inr (Or.inl ⟨left, outcome, rfl, rfl, ⟨cost, hcost, hleft⟩, hrevert⟩)
      | none =>
        simp only [hending] at hpaid
        cases hpaid
        exact Or.inr (Or.inr
          ⟨left, rfl, i.ending?_eq_none_iff.1 hending, ⟨cost, hcost, hleft⟩⟩)

/-- Where the run goes on, the instruction has not ended it. -/
theorem isTerminal_of_step {i : Instruction} {rest rest' : ρ} {gas left : U64} {s t : σ}
    (h : S.step address byzantium i rest gas s = .ok (.onward rest' left t)) :
    i.isTerminal = false ∧ rest' = rest := by
  rcases step_cases h with ⟨hp, -⟩ | ⟨left, outcome, hp, -⟩ | ⟨left, hp, hgoes, -⟩
  · cases hp
  · cases hp
  · cases hp
    exact ⟨hgoes, rfl⟩

/-- A pass that does not end the run has taken at least one byte. -/
theorem length_of_pass {code rest : Bytes} {gas left : U64} {s t : σ}
    (h : S.pass address byzantium code gas s = .ok (.onward rest left t)) :
    rest.length < code.length := by
  unfold pass at h
  split at h
  · cases h
  · split at h
    · cases h
    · next i behind hread =>
      have hlength := Instruction.length_of_read hread
      have hsize := i.size_pos
      have hrest := (isTerminal_of_step h).2
      rw [hrest]
      omega

/-- A loop that has ended takes no notice of further passes. -/
theorem loop_add {passes : Nat} {code : Bytes} {gas : U64} {s : σ} {f : Frame σ}
    (h : S.loop address byzantium passes code gas s = .ok (some f)) (more : Nat) :
    S.loop address byzantium (passes + more) code gas s = .ok (some f) := by
  induction passes generalizing code gas s with
  | zero => cases h
  | succ passes ih =>
    rw [Nat.succ_add]
    unfold loop at h ⊢
    obtain ⟨p, hp, hgo⟩ := exists_of_bind h
    rw [hp]
    cases p with
    | ended g => exact hgo
    | onward rest left t => exact ih hgo

/-- In front of an instruction that fits its encoding, a pass carries it out. -/
theorem loop_encode_append {i : Instruction} (hfits : i.WellFormed) (passes : Nat) (rest : Bytes)
    (gas : U64) (s : σ) :
    S.loop address byzantium (passes + 1) (i.encode ++ rest) gas s =
      S.step address byzantium i () gas s >>= fun
        | .ended f => .ok (some f)
        | .onward () left t => S.loop address byzantium passes rest left t := by
  have hsome : ¬ (i.encode ++ rest).isEmpty = true := by
    intro hempty
    have hlength := congrArg List.length (List.isEmpty_iff.1 hempty)
    have hsize := i.size_pos
    rw [List.length_append, i.length_encode, List.length_nil] at hlength
    omega
  have hpass : S.pass address byzantium (i.encode ++ rest) gas s =
      S.step address byzantium i rest gas s := by
    unfold pass
    rw [if_neg hsome, Instruction.read_encode_append hfits]
  rw [loop, hpass, step_eq]
  cases S.step address byzantium i () gas s with
  | error e => rfl
  | ok p => cases p <;> rfl

/-- The loop over code that spells a program runs that program. It ends within as many passes as
the code has bytes, and one to see the end of them. -/
theorem loop_of_spells {program : List Instruction} {code : Bytes} (h : Spells program code)
    {passes : Nat} (hpasses : code.length ≤ passes) (gas : U64) (s : σ) :
    S.loop address byzantium (passes + 1) code gas s =
      (S.run address byzantium program gas s).map some := by
  induction h generalizing passes gas s with
  | empty => rfl
  | @last i hfits hends rest =>
    rw [loop_encode_append hfits, run]
    cases hstep : S.step address byzantium i () gas s with
    | error e => rfl
    | ok p =>
      cases p with
      | ended f => rfl
      | onward _ left t =>
        rw [(isTerminal_of_step hstep).1] at hends
        cases hends
  | @cons i later code hfits hgoes _ ih =>
    have hsize := i.size_pos
    rw [List.length_append, i.length_encode] at hpasses
    rw [loop_encode_append hfits, run]
    cases S.step address byzantium i () gas s with
    | error e => rfl
    | ok p =>
      cases p with
      | ended f => rfl
      | onward _ left t =>
        -- The instruction has at least one byte, so a pass is left for each byte behind it.
        obtain ⟨fewer, rfl⟩ : ∃ fewer, passes = fewer + 1 := ⟨passes - 1, by omega⟩
        exact ih (by omega) left t

/-! ## Falling short -/

/-- Some instruction that is come to cannot be paid for out of what the ones before have left, or
it reverts under rules that do not know it. -/
inductive FallsShort (S : Store σ) (address : Address) (byzantium : Bool) :
    List Instruction → U64 → σ → Prop
  | unpaid {i : Instruction} {gas : U64} {s : σ} (program : List Instruction)
    (h : S.LacksGas address i gas s) : FallsShort S address byzantium (i :: program) gas s
  | unknown (program : List Instruction) (gas : U64) (s : σ) (h : byzantium = false) :
    FallsShort S address byzantium (.revert :: program) gas s
  | later {i : Instruction} {program : List Instruction} {gas left : U64} {s : σ}
    (hgoes : i.isTerminal = false) (hpays : S.Pays address i gas s left)
    (h : FallsShort S address byzantium program left
      (S.makeAll s (i.changes address (S.storage s address)))) :
    FallsShort S address byzantium (i :: program) gas s

/-- A run halts exactly where it falls short. -/
theorem halts_iff_fallsShort {program : List Instruction} {gas : U64} {s : σ} {f : Frame σ}
    (h : S.run address byzantium program gas s = .ok f) :
    f.outcome = .error .exceptional ↔ S.FallsShort address byzantium program gas s := by
  induction program generalizing gas s with
  | nil =>
    cases h
    constructor
    · intro hhalts
      cases hhalts
    · intro hshort
      cases hshort
  | cons i program ih =>
    obtain ⟨p, hp, hgo⟩ := exists_of_bind h
    rcases step_cases hp with ⟨rfl, hwhy⟩ | ⟨left, outcome, rfl, hending, hpays, hknown⟩ |
      ⟨left, rfl, hgoes, hpays⟩
    · cases hgo
      refine ⟨fun _ => ?_, fun _ => rfl⟩
      rcases hwhy with ⟨rfl, hbyzantium⟩ | hlacks
      · exact .unknown program gas s hbyzantium
      · exact .unpaid program hlacks
    · cases hgo
      constructor
      · intro hhalts
        have hout : outcome = .error .exceptional := hhalts
        rw [hout] at hending
        cases i <;> cases hending
      · intro hshort
        cases hshort with
        | unpaid _ hlacks => exact absurd hlacks hpays.not_lacksGas
        | unknown _ _ _ hbyzantium => exact absurd hbyzantium (by simp [hknown rfl])
        | later hgoes _ _ =>
          rw [(i.ending?_eq_none_iff).2 hgoes] at hending
          cases hending
    · rw [ih hgo]
      constructor
      · exact fun hshort => .later hgoes hpays hshort
      · intro hshort
        cases hshort with
        | unpaid _ hlacks => exact absurd hlacks hpays.not_lacksGas
        | unknown _ _ _ _ => cases hgoes
        | later _ hpays' hlater =>
          rw [hpays.eq hpays']
          exact hlater

end Store

/-! ## Views -/

/-- One store is what is seen of another: it reads alike, and each change shows. -/
structure Views {σ τ : Type} (S : Store σ) (T : Store τ) (view : σ → τ) : Prop where
  storage : ∀ s, T.storage (view s) = S.storage s
  make : ∀ s c, T.make (view s) c = view (S.make s c)

namespace Views

variable {ρ σ τ : Type} {S : Store σ} {T : Store τ} {view : σ → τ} (h : Views S T view)
  {address : Address} {byzantium : Bool}

include h

theorem makeAll (s : σ) (made : List Change) :
    T.makeAll (view s) made = view (S.makeAll s made) := by
  induction made generalizing s with
  | nil => rfl
  | cons c rest ih =>
    show T.makeAll (T.make (view s) c) rest = view (S.makeAll (S.make s c) rest)
    rw [h.make, ih]

theorem step (i : Instruction) (rest : ρ) (gas : U64) (s : σ) :
    T.step address byzantium i rest gas (view s) =
      (S.step address byzantium i rest gas s).map (Progress.mapStore view) := by
  unfold Store.step
  rw [h.storage, h.makeAll]
  split
  · rfl
  · cases i.price (S.storage s address) with
    | error e => rfl
    | ok cost =>
      simp only [bind, Except.bind]
      cases gas.sub? cost with
      | none => rfl
      | some left =>
        simp only
        cases InPlace.ending? i with
        | none => rfl
        | some outcome => rfl

theorem run (program : List Instruction) (gas : U64) (s : σ) :
    T.run address byzantium program gas (view s) =
      (S.run address byzantium program gas s).map (Frame.mapStore view) := by
  induction program generalizing gas s with
  | nil => rfl
  | cons i program ih =>
    rw [Store.run, Store.run, h.step]
    cases S.step address byzantium i () gas s with
    | error e => rfl
    | ok p =>
      cases p with
      | ended f => rfl
      | onward rest left t => exact ih left t

theorem pass (code : Bytes) (gas : U64) (s : σ) :
    T.pass address byzantium code gas (view s) =
      (S.pass address byzantium code gas s).map (Progress.mapStore view) := by
  unfold Store.pass
  split
  · rfl
  · cases Instruction.read 0 code with
    | error e => rfl
    | ok found => exact h.step _ _ gas s

theorem loop (passes : Nat) (code : Bytes) (gas : U64) (s : σ) :
    T.loop address byzantium passes code gas (view s) =
      (S.loop address byzantium passes code gas s).map (Option.map (Frame.mapStore view)) := by
  induction passes generalizing code gas s with
  | zero => rfl
  | succ passes ih =>
    rw [Store.loop, Store.loop, h.pass]
    cases S.pass address byzantium code gas s with
    | error e => rfl
    | ok p =>
      cases p with
      | ended f => rfl
      | onward rest left t => exact ih rest left t

/-- What is noted down over one store is noted down over the other. -/
theorem tape_eq (s : σ) : T.tape (view s) = S.tape s := by
  have hread : ∀ made, T.storage (T.makeAll (view s) made) = S.storage (S.makeAll s made) := by
    intro made
    rw [h.makeAll, h.storage]
  unfold Store.tape
  simp only [hread]

end Views

namespace Store

variable {σ : Type} {address : Address} {byzantium : Bool}

/-- Whoever makes the changes that were noted down sees what the run has left. -/
theorem views_tape (S : Store σ) (start : σ) : Views (S.tape start) S (S.makeAll start) where
  storage _ := rfl
  make made c := by
    show S.make (made.foldl S.make start) c = (made ++ [c]).foldl S.make start
    rw [List.foldl_append]
    rfl

/-- The committed world is what is seen of a write set. -/
theorem views_commit (base : World) : Views (buffered base) world (·.commit base) where
  storage ws := funext fun address => funext fun key => ws.storage_commit base address key
  make ws c := (c.commit_buffer base ws).symm

/-! ## The executors -/

/-- An instruction carried out in place. -/
theorem perform_eq_step (i : Instruction) (gas : U64) (w : World)
    (next : U64 → World → Checked (Frame World)) :
    InPlace.perform address byzantium i gas w next =
      world.step address byzantium i () gas w >>= fun
        | .ended f => .ok f
        | .onward () left v => next left v := by
  by_cases hunknown : i = .revert ∧ byzantium = false
  · rw [hunknown.1, hunknown.2]
    rfl
  · have hknown : i ≠ .revert ∨ byzantium = true := by
      rw [Decidable.not_and_iff_not_or_not, Bool.not_eq_false] at hunknown
      exact hunknown
    have hmade : world.makeAll w (i.changes address (world.storage w address)) =
        InPlace.effect address w i := i.directAll_changes address w
    have hprice : i.price (world.storage w address) = InPlace.price address w i :=
      i.price_eq address w
    rw [InPlace.perform_eq hknown]
    unfold step
    rw [if_neg hunknown, hmade, hprice]
    cases InPlace.price address w i with
    | error e => rfl
    | ok cost =>
      simp only [bind, Except.bind]
      cases gas.sub? cost with
      | none => rfl
      | some left => cases i <;> rfl

/-- Decoded instructions run in place. -/
theorem run_world (program : List Instruction) (gas : U64) (w : World) :
    world.run address byzantium program gas w =
      InPlace.execute address byzantium program gas w := by
  induction program generalizing gas w with
  | nil => rfl
  | cons i program ih =>
    have hnext : InPlace.execute address byzantium program =
        world.run address byzantium program :=
      funext fun left => funext fun v => (ih left v).symm
    rw [InPlace.execute, perform_eq_step, hnext, run]
    cases world.step address byzantium i () gas w with
    | error e => rfl
    | ok p => cases p <;> rfl

/-- Decoded instructions run over a write set. -/
theorem run_buffered (base : World) (program : List Instruction) (gas : U64) (ws : WriteSet) :
    (buffered base).run address byzantium program gas ws =
      Buffered.execute base address byzantium program gas ws := by
  induction program generalizing gas ws with
  | nil => rfl
  | cons i program ih =>
    have hread : (buffered base).storage ws = ws.storage base := rfl
    cases i with
    | stop =>
      simp only [run, Buffered.execute, step, Instruction.price, InPlace.ending?, bind, Except.bind]
      cases gas.sub? Gas.bareInstruction with
      | none => rfl
      | some left => rfl
    | store key value =>
      simp only [run, Buffered.execute, step, Instruction.price, InPlace.ending?, hread, bind,
        Except.bind]
      cases Gas.instruction (Gas.storageCharge
          (ws.storage base address key).isZero value.isZero).cost with
      | error e => rfl
      | ok cost =>
        simp only
        cases gas.sub? cost with
        | none => rfl
        | some left => exact ih left _
    | log topics data =>
      simp only [run, Buffered.execute, step, Instruction.price, InPlace.ending?, bind, Except.bind]
      cases Gas.logCost topics.length data.length with
      | error e => rfl
      | ok price =>
        simp only
        cases Gas.instruction price with
        | error e => rfl
        | ok cost =>
          simp only
          cases gas.sub? cost with
          | none => rfl
          | some left => exact ih left _
    | ret data =>
      simp only [run, Buffered.execute, step, Instruction.price, InPlace.ending?, bind, Except.bind]
      cases gas.sub? Gas.bareInstruction with
      | none => rfl
      | some left => rfl
    | revert =>
      simp only [run, Buffered.execute, step, Instruction.price, InPlace.ending?, bind, Except.bind]
      cases byzantium with
      | false => rfl
      | true =>
        cases gas.sub? Gas.bareInstruction with
        | none => rfl
        | some left => rfl

/-- The interpreter is the loop over the bytes: it has ended once each of them could have been
read. -/
theorem loop_world {passes : Nat} {code : Bytes} (hpasses : code.length < passes) (gas : U64)
    (w : World) :
    world.loop address byzantium passes code gas w =
      (InPlace.interpret address byzantium code gas w).map some := by
  induction passes generalizing code gas w with
  | zero => exact absurd hpasses (Nat.not_lt_zero _)
  | succ passes ih =>
    rw [loop]
    by_cases hempty : code = []
    · rw [hempty, InPlace.interpret_nil]
      rfl
    · have hsome : ¬ code.isEmpty = true := fun he => hempty (List.isEmpty_iff.1 he)
      unfold pass
      rw [if_neg hsome]
      cases hread : Instruction.read 0 code with
      | error e =>
        rw [InPlace.interpret_of_read_error hempty hread]
        rfl
      | ok pair =>
        obtain ⟨i, rest⟩ := pair
        have hlength := Instruction.length_of_read hread
        have hsize := i.size_pos
        have hrest : rest.length < passes := by omega
        simp only
        rw [InPlace.interpret_of_read hread, perform_eq_step, step_eq i rest]
        cases world.step address byzantium i () gas w with
        | error e => rfl
        | ok p =>
          cases p with
          | ended f => rfl
          | onward _ left v => exact ih hrest left v

end Store

end TwinLedger
