import TwinLedger.Proofs.World.Writes

/-!
# Going back to a checkpoint

A checkpoint does not keep the logs, only how many there were, and a name does not keep its
checkpoint, only how deep it lies in the stack. So going back is right only as long as nobody has
cut into the logs below that count or into the stack below that depth. `Standing` says so:

> the logs in front are those of the time when the checkpoint was laid, the checkpoint still lies
> on what it was laid on, and whatever lies above it remembers at least as many logs.

It holds when a checkpoint is laid, and every step keeps it that does not go back below: a write,
a log, a stamp, another checkpoint, and a return to a checkpoint above (`Standing.perform`). After
any number of such steps the return to the checkpoint gives the state in which it was laid, but for
the stamp (`revert_run_snapshot`). Nothing has to be known about that state.
-/

namespace TwinLedger

namespace Journaled

/-! ## What a return does -/

/-- A return to a name cuts the stack at the checkpoint of that depth. -/
theorem revert_of_points {s : Journaled} {newer older : List Checkpoint} {c : Checkpoint}
    (h : s.points = newer ++ c :: older) : s.revert older.length = ⟨s.world.restore c, older⟩ := by
  have hlength : s.points.length = newer.length + (older.length + 1) := by
    rw [h, List.length_append, List.length_cons]
  have hdrop : s.points.drop (s.points.length - (older.length + 1)) = c :: older := by
    rw [hlength, Nat.add_sub_cancel, h, List.drop_left]
  unfold revert
  rw [if_pos (by omega), hdrop]

/-- A name that is not in use is ignored. -/
theorem revert_of_le {s : Journaled} {id : Nat} (h : s.points.length ≤ id) : s.revert id = s :=
  if_neg (Nat.not_lt.2 h)

/-- A name is in use if a checkpoint of that depth is on the stack. -/
theorem exists_points_of_lt {s : Journaled} {id : Nat} (h : id < s.points.length) :
    ∃ newer c older, s.points = newer ++ c :: older ∧ older.length = id := by
  have hdepth : s.points.length - (id + 1) < s.points.length := by omega
  refine ⟨s.points.take (s.points.length - (id + 1)), s.points[s.points.length - (id + 1)],
    s.points.drop (s.points.length - (id + 1) + 1), ?_, ?_⟩
  · rw [List.getElem_cons_drop, List.take_append_drop]
  · rw [List.length_drop]
    omega

/-- The stamp has no part in the journal. -/
theorem revert_prepare (s : Journaled) (stamp : Stamp) (id : Nat) :
    (s.modify (·.prepare stamp)).revert id = (s.revert id).modify (·.prepare stamp) := by
  rcases Nat.lt_or_ge id s.points.length with hlt | hge
  · obtain ⟨newer, c, older, hpoints, rfl⟩ := exists_points_of_lt hlt
    have hpoints' : (s.modify (·.prepare stamp)).points = newer ++ c :: older := hpoints
    rw [revert_of_points hpoints, revert_of_points hpoints']
    rfl
  · have hge' : (s.modify (·.prepare stamp)).points.length ≤ id := hge
    rw [revert_of_le hge, revert_of_le hge']

/-! ## Steps -/

/-- What may happen to a journaled world between two finalisations. -/
inductive Step where
  | write (x : World.Write)
  | addRefund (gas : U64)
  | addLog (l : Log)
  | prepare (stamp : Stamp)
  | snapshot
  | revert (id : Nat)
  deriving DecidableEq

/-- Makes one step. -/
def perform (s : Journaled) : Step → Journaled
  | .write x => s.modify x.perform
  | .addRefund gas => s.modify (·.addRefund gas)
  | .addLog l => s.modify (·.addLog l)
  | .prepare stamp => s.modify (·.prepare stamp)
  | .snapshot => s.snapshot.1
  | .revert id => s.revert id

/-- Makes steps one after the other. -/
def run (s : Journaled) (steps : List Step) : Journaled := steps.foldl perform s

/-- The stamp after some steps: the last one that was set. -/
def lastStamp (stamp : Stamp) : List Step → Stamp
  | [] => stamp
  | .prepare next :: rest => lastStamp next rest
  | _ :: rest => lastStamp stamp rest

/-- A return restores everything but the stamp. -/
theorem stamp_revert (s : Journaled) (id : Nat) : (s.revert id).world.stamp = s.world.stamp := by
  unfold revert
  split
  · split <;> rfl
  · rfl

/-- The stamp is what the steps have last set it to. -/
theorem stamp_run (s : Journaled) (steps : List Step) :
    (s.run steps).world.stamp = lastStamp s.world.stamp steps := by
  induction steps generalizing s with
  | nil => rfl
  | cons step rest ih =>
    show ((s.perform step).run rest).world.stamp = _
    rw [ih]
    cases step with
    | write x =>
      have hstamp : (x.perform s.world).stamp = s.world.stamp := by
        rw [World.Write.perform_eq]
        rfl
      exact congrArg (lastStamp · rest) hstamp
    | addRefund gas => rfl
    | addLog l => rfl
    | prepare stamp => rfl
    | snapshot => rfl
    | revert id => exact congrArg (lastStamp · rest) (stamp_revert s id)

/-! ## A checkpoint that stands -/

/-- The second state has come from the first, in which a checkpoint was laid, without going back
below it. -/
structure Standing (s t : Journaled) : Prop where
  /-- Nothing of the world is lost but the stamp. -/
  world : (s.world.prepare t.world.stamp).Extends t.world
  /-- The checkpoint lies where it was laid, under later ones. -/
  points : ∃ newer, t.points = newer ++ s.world.checkpoint :: s.points ∧
    ∀ c ∈ newer, s.world.logs.length ≤ c.logCount

namespace Standing

variable {s t : Journaled}

theorem snapshot (s : Journaled) : Standing s s.snapshot.1 :=
  ⟨.refl _, [], rfl, fun c hc => by cases hc⟩

/-- A later checkpoint has the one under it below. -/
theorem of_points (h : Standing s t) {newer older : List Checkpoint} {c : Checkpoint}
    (hpoints : t.points = newer ++ c :: older) (hlater : s.points.length < older.length) :
    Standing s ⟨t.world.restore c, older⟩ := by
  obtain ⟨above, habove, hcounts⟩ := h.points
  rw [habove] at hpoints
  rcases List.append_eq_append_iff.1 hpoints with ⟨mid, -, hmid⟩ | ⟨mid, rfl, hmid⟩
  · -- The checkpoint returned to would lie under the one that stands.
    have hlength := congrArg List.length hmid
    simp only [List.length_append, List.length_cons] at hlength
    omega
  · cases mid with
    | nil =>
      have hlength := congrArg List.length hmid
      simp only [List.nil_append, List.length_cons] at hlength
      omega
    | cons first mid =>
      obtain ⟨rfl, rfl⟩ := List.cons.inj hmid
      have hcount := hcounts c (by simp)
      refine ⟨⟨h.world.finalised, rfl, ?_⟩, mid, rfl, fun d hd => hcounts d (by simp [hd])⟩
      exact List.prefix_take_iff.2 ⟨h.world.logs, hcount⟩

/-- No step takes the checkpoint away but a return to it or below it. -/
theorem perform (h : Standing s t) {step : Step}
    (hlater : ∀ id, step = .revert id → s.points.length < id) : Standing s (t.perform step) := by
  obtain ⟨newer, hpoints, hcounts⟩ := h.points
  cases step with
  | write x =>
    refine ⟨?_, newer, hpoints, hcounts⟩
    show (s.world.prepare (x.perform t.world).stamp).Extends (x.perform t.world)
    rw [World.Write.perform_eq]
    exact h.world.setAccount _ _
  | addRefund gas => exact ⟨h.world.addRefund gas, newer, hpoints, hcounts⟩
  | addLog l => exact ⟨h.world.addLog l, newer, hpoints, hcounts⟩
  | prepare stamp =>
    exact ⟨⟨h.world.finalised, rfl, h.world.logs⟩, newer, hpoints, hcounts⟩
  | snapshot =>
    refine ⟨h.world, t.world.checkpoint :: newer, congrArg _ hpoints, ?_⟩
    intro c hc
    rcases List.mem_cons.1 hc with rfl | hc
    · exact h.world.logs.length_le
    · exact hcounts c hc
  | revert id =>
    have hid := hlater id rfl
    show Standing s (t.revert id)
    rcases Nat.lt_or_ge id t.points.length with hlt | hge
    · obtain ⟨above, c, older, habove, rfl⟩ := exists_points_of_lt hlt
      rw [revert_of_points habove]
      exact h.of_points habove hid
    · rw [revert_of_le hge]
      exact h

theorem run (h : Standing s t) {steps : List Step}
    (hlater : ∀ id, .revert id ∈ steps → s.points.length < id) : Standing s (t.run steps) := by
  induction steps generalizing t with
  | nil => exact h
  | cons step rest ih =>
    have hfirst : Standing s (t.perform step) :=
      h.perform fun id hid => hlater id (by rw [hid]; simp)
    exact ih hfirst fun id hid => hlater id (List.mem_cons_of_mem _ hid)

/-- The return to a checkpoint that stands undoes everything but the stamp. -/
theorem revert_eq (h : Standing s t) :
    t.revert s.points.length = s.modify (·.prepare t.world.stamp) := by
  obtain ⟨newer, hpoints, -⟩ := h.points
  have hrestore : t.world.restore s.world.checkpoint = s.world.prepare t.world.stamp :=
    World.restore_checkpoint h.world
  rw [revert_of_points hpoints, hrestore]
  rfl

end Standing

/-! ## The return -/

/-- Whatever happened after a checkpoint was laid, as long as nobody went back to it or below: the
return to it gives the state in which it was laid, its older checkpoints included, with the last
stamp that was set. So a further return to an older name is the one that could have been made then.
A return to a name that is not in use changes nothing. -/
theorem revert_run_snapshot (s : Journaled) (steps : List Step)
    (hlater : ∀ id, .revert id ∈ steps → s.snapshot.2 < id) :
    (s.snapshot.1.run steps).revert s.snapshot.2 =
      s.modify (·.prepare (lastStamp s.world.stamp steps)) ∧
    (∀ older, ((s.snapshot.1.run steps).revert s.snapshot.2).revert older =
      (s.revert older).modify (·.prepare (lastStamp s.world.stamp steps))) ∧
    ∀ (t : Journaled) (id : Nat), t.points.length ≤ id → t.revert id = t := by
  have hstamp : (s.snapshot.1.run steps).world.stamp = lastStamp s.world.stamp steps :=
    stamp_run s.snapshot.1 steps
  have hreturn : (s.snapshot.1.run steps).revert s.snapshot.2 =
      s.modify (·.prepare (lastStamp s.world.stamp steps)) := by
    rw [← hstamp]
    exact ((Standing.snapshot s).run hlater).revert_eq
  refine ⟨hreturn, ?_, fun t id => revert_of_le⟩
  intro older
  rw [hreturn, revert_prepare]

/-- A written account and a checkpoint under it. -/
def twiceWritten : Journaled :=
  ({} : Journaled).snapshot.1.perform (.write (.setNonce 1 5))

/-- Steps with a checkpoint of their own, which is returned to, and a name that is not in use. -/
def nestedSteps : List Step :=
  [.write (.setNonce 1 6), .addLog { address := 1 }, .snapshot, .write (.setStorage 1 2 3),
    .prepare { blockNumber := 7 }, .revert 2, .revert 9, .addRefund 4]

theorem revert_run_snapshot_nested :
    (∀ id, .revert id ∈ nestedSteps → twiceWritten.snapshot.2 < id) ∧
    (twiceWritten.snapshot.1.run nestedSteps).revert twiceWritten.snapshot.2 =
      twiceWritten.modify (·.prepare { blockNumber := 7 }) := by
  have hlater : ∀ id, .revert id ∈ nestedSteps → twiceWritten.snapshot.2 < id := by
    intro id hid
    have hcases : id = 2 ∨ id = 9 := by simpa [nestedSteps] using hid
    rcases hcases with rfl | rfl <;> decide
  exact ⟨hlater, (revert_run_snapshot twiceWritten nestedSteps hlater).1⟩

end Journaled

end TwinLedger
