import TwinLedger.Block.Transition
import TwinLedger.Diagnostics.Bundle
import TwinLedger.World.Diff

/-!
# Checking the executors against each other

Both executors apply the transaction to copies of the live values. What they leave is compared:
gas used, receipt, error text, root of the finalised world, and contents of the finalised world,
in this order up to the first difference. A difference is reported in a bundle and ends the block.
-/

namespace TwinLedger

namespace Applied

variable {σ : Type}

/-- The gas used, zero after an error. -/
def gasUsed (a : Applied σ) : U64 :=
  match a.outcome with
  | .ok (_, gas) => gas
  | .error _ => 0

def receipt? (a : Applied σ) : Option Receipt :=
  match a.outcome with
  | .ok (receipt, _) => some receipt
  | .error _ => none

/-- The text of the error. -/
def error? (a : Applied σ) : Option String :=
  match a.outcome with
  | .ok _ => none
  | .error e => some e.message

def report (a : Applied σ) : BranchReport := ⟨a.gasUsed, a.error?⟩

/-- The contents of the world that was left. -/
def contents [WorldState σ] (a : Applied σ) : World := WorldState.contents a.live.world

end Applied

/-- What both sides have, as the detail of a mismatch. -/
def bothSides (alternate reference : String) : String :=
  "alternate: " ++ alternate ++ ", reference: " ++ reference

/-- The first difference between two outcomes, the worlds left aside. -/
def compareOutcomes {σ : Type} (alternate reference : Applied σ) : Option Mismatch :=
  if alternate.gasUsed ≠ reference.gasUsed then
    some ⟨.gasUsed, bothSides alternate.gasUsed.decimal reference.gasUsed.decimal⟩
  else if alternate.receipt? ≠ reference.receipt? then
    some ⟨.receipt, bothSides (Shown.option (alternate.receipt?.map Receipt.shown))
      (Shown.option (reference.receipt?.map Receipt.shown))⟩
  else
    match alternate.error?, reference.error? with
    | some a, some r => if a ≠ r then some ⟨.errorText, bothSides a r⟩ else none
    | none, none => none
    | a, r =>
      some ⟨.errorPresence, bothSides (Shown.option (a.map Json.quote))
        (Shown.option (r.map Json.quote))⟩

/-- The first difference between two finalised worlds. -/
def compareWorlds (alternate reference : World) : Option Mismatch :=
  if alternate.root ≠ reference.root then
    some ⟨.intermediateRoot, bothSides alternate.root.hex reference.root.hex⟩
  else if alternate ≠ reference then some ⟨.state, "state contents differ"⟩
  else none

/-- A mismatch and the worlds in which it was found. -/
structure Disagreement where
  mismatch : Mismatch
  alternate : World
  reference : World
  deriving DecidableEq

/-- The first difference between two sides. Worlds are finalised before they are compared; a
difference found earlier leaves them as they are. -/
def disagreement? {σ : Type} [WorldState σ] (deleteEmpty : Bool) (alternate reference : Applied σ) :
    Option Disagreement :=
  match compareOutcomes alternate reference with
  | some m => some ⟨m, alternate.contents, reference.contents⟩
  | none =>
    let a := alternate.contents.finalise deleteEmpty
    let r := reference.contents.finalise deleteEmpty
    (compareWorlds a r).map fun m => ⟨m, a, r⟩

/-- The bundle that describes a disagreement. -/
def Disagreement.bundle {σ : Type} (d : Disagreement) (header : Header) (tx : Transaction)
    (alternate reference : Applied σ) : Bundle where
  header
  tx
  report :=
    { blockNumber := header.number
      txHash := tx.hash
      mismatch := d.mismatch
      alternate := alternate.report
      reference := reference.report
      diff := (d.alternate.diff d.reference).map Difference.text }
  branches :=
    [⟨.alternate, d.alternate.logsOf tx.hash, alternate.receipt?⟩,
      ⟨.reference, d.reference.logsOf tx.hash, reference.receipt?⟩]

/-- Runs each executor on its own copy of the live values and compares what they leave. Only the
disk can change. -/
def verify {σ : Type} [WorldState σ] (chain : Chain) (executors : Executors σ)
    (location : DiagnosticsLocation) (author : Option Address) (header : Header) (tx : Transaction)
    (live : Live σ) (disk : Disk) : Checked (Except ProcessError Unit × Disk) := do
  let alternate ← applyWith chain executors.alternate author header tx live.copy
  let reference ← applyWith chain executors.reference author header tx live.copy
  match disagreement? (chain.config.isEip158 header.number) alternate reference with
  | none => .ok (.ok (), disk)
  | some d =>
    match (d.bundle header tx alternate reference).write location disk with
    | (.ok (), written) => .ok (.error (.mismatch d.mismatch), written)
    | (.error e, written) => .ok (.error (.diagnostics d.mismatch e.chain), written)

end TwinLedger
