import TwinLedger.World.Finalise

/-!
# Checkpoints

A checkpoint remembers the pending layer, how many logs there were and the refund counter, and
restoring it undoes everything since but the stamp. A journaled world keeps a stack of
checkpoints, each known by its position from the bottom; going back to one takes away all that
were laid on it.

The stack is no part of the contents of the world. States are compared by their contents, and a
copy, or a state that has been finalised, has nothing beside them (`WorldState`).
-/

namespace TwinLedger

/-- What is needed to undo writes. -/
structure Checkpoint where
  pending : SortedMap Address Account
  logCount : Nat
  refund : U64
  deriving DecidableEq

namespace World

def checkpoint (w : World) : Checkpoint := ⟨w.pending, w.logs.length, w.refund⟩

/-- Undoes what was written since the checkpoint. -/
def restore (w : World) (c : Checkpoint) : World :=
  { w with pending := c.pending, logs := w.logs.take c.logCount, refund := c.refund }

end World

/-- A world with a stack of checkpoints, the newest first. -/
structure Journaled where
  world : World := {}
  points : List Checkpoint := []
  deriving DecidableEq

namespace Journaled

/-- An independent world of the same contents; the checkpoints stay behind. -/
def copy (s : Journaled) : Journaled := ⟨s.world, []⟩

/-- Writes to the world. -/
def modify (s : Journaled) (f : World → World) : Journaled := { s with world := f s.world }

/-- Lays a checkpoint on the stack and names it. -/
def snapshot (s : Journaled) : Journaled × Nat :=
  (⟨s.world, s.world.checkpoint :: s.points⟩, s.points.length)

/-- Goes back to the checkpoint of the given name; an unknown name changes nothing. -/
def revert (s : Journaled) (id : Nat) : Journaled :=
  if id < s.points.length then
    match s.points.drop (s.points.length - (id + 1)) with
    | c :: older => ⟨s.world.restore c, older⟩
    | [] => s
  else s

/-- Finalises the world and forgets all checkpoints. -/
def finalise (s : Journaled) (deleteEmpty : Bool) : Journaled := ⟨s.world.finalise deleteEmpty, []⟩

end Journaled

/-! ## States -/

/-- What can be run on: a world, or a world with something beside it that is no part of its
contents. -/
class WorldState (σ : Type) where
  contents : σ → World
  /-- The state with nothing beside its contents. -/
  bare : World → σ
  contents_bare : ∀ w, contents (bare w) = w

instance : WorldState World := ⟨fun w => w, fun w => w, fun _ => rfl⟩

instance : WorldState Journaled := ⟨Journaled.world, fun w => ⟨w, []⟩, fun _ => rfl⟩

namespace WorldState

variable {σ : Type} [WorldState σ]

/-- An independent state of the same contents. -/
def copy (s : σ) : σ := bare (contents s)

/-- Finalises the contents, and forgets what was beside them. -/
def finalise (s : σ) (deleteEmpty : Bool) : σ := bare ((contents s).finalise deleteEmpty)

theorem contents_world (w : World) : contents w = w := rfl

theorem contents_copy (s : σ) : contents (copy s) = contents s := contents_bare _

/-- A copy of a journaled world leaves its checkpoints behind. -/
theorem copy_journaled (s : Journaled) : copy s = s.copy := rfl

theorem finalise_journaled (s : Journaled) (deleteEmpty : Bool) :
    finalise s deleteEmpty = s.finalise deleteEmpty := rfl

end WorldState

end TwinLedger
