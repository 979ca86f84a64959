import TwinLedger.Proofs.Execution.Settlement

/-!
# What a message logs

The logs of a block are one list that grows at its end. A log is put there with the stamp that the
world carries and with its position for a number, and nobody touches it again, unless the call that
emitted it fails and the list is cut back to where it was:

> `Emits`: the second world is the first with some logs behind its own, all of them under the stamp
> of the first, and numbered on if the first is.

Purchase and settlement write to accounts alone, so that all logs of a message come from the program
of the account called, which is gone through instruction by instruction (`ProgramWrites.emits`). A
message that failed has emitted nothing (`Included.logs_of_failed`).
-/

namespace TwinLedger

/-- The stamp that a log carries. -/
def Log.stamp (l : Log) : Stamp := ⟨l.txHash, l.blockHash, l.blockNumber, l.txIndex⟩

namespace World

/-- Every log is numbered with its position. -/
def Numbered (w : World) : Prop := ∀ (k : Nat) (l : Log), w.logs[k]? = some l → l.index = .wrap k

/-- The second world is the first with some logs emitted under its stamp. -/
structure Emits (w v : World) : Prop where
  stamp : v.stamp = w.stamp
  logs : ∃ new, v.logs = w.logs ++ new ∧ ∀ l ∈ new, l.stamp = w.stamp
  numbered : w.Numbered → v.Numbered

namespace Emits

variable {u v w : World}

/-- What leaves logs and stamp alone emits nothing. -/
theorem of_logs_eq (hlogs : v.logs = w.logs) (hstamp : v.stamp = w.stamp) : w.Emits v := by
  refine ⟨hstamp, ⟨[], ?_, ?_⟩, ?_⟩
  · rw [hlogs, List.append_nil]
  · intro l hl
    cases hl
  · intro hw k l hl
    rw [hlogs] at hl
    exact hw k l hl

theorem trans (h : u.Emits v) (h' : v.Emits w) : u.Emits w := by
  obtain ⟨early, hearly, hfirst⟩ := h.logs
  obtain ⟨late, hlate, hsecond⟩ := h'.logs
  refine ⟨h'.stamp.trans h.stamp, ⟨early ++ late, ?_, ?_⟩, fun hu => h'.numbered (h.numbered hu)⟩
  · rw [hlate, hearly, List.append_assoc]
  · intro l hl
    rcases List.mem_append.1 hl with hl | hl
    · exact hfirst l hl
    · exact (hsecond l hl).trans h.stamp

theorem addLog (w : World) (l : Log) : w.Emits (w.addLog l) := by
  refine ⟨rfl, ⟨[l.stamped w.stamp (.wrap w.logs.length)], rfl, ?_⟩, ?_⟩
  · intro e he
    rw [List.mem_singleton.1 he]
    rfl
  · intro hw k e he
    have hlogs : (w.addLog l).logs = w.logs ++ [l.stamped w.stamp (.wrap w.logs.length)] := rfl
    rw [hlogs] at he
    -- A position is one of those before, or the one at the end.
    rcases Nat.lt_trichotomy k w.logs.length with hlt | heq | hgt
    · rw [List.getElem?_append_left hlt] at he
      exact hw k e he
    · rw [heq, List.getElem?_concat_length] at he
      cases he
      rw [heq]
      rfl
    · rw [List.getElem?_eq_none (by simp; omega)] at he
      cases he

end Emits

end World

/-! ## One message -/

theorem ProgramWrites.emits {address : Address} {w v : World} (h : ProgramWrites address w v) :
    w.Emits v := by
  induction h with
  | done w => exact .of_logs_eq rfl rfl
  | @slot w v key value refund hcode _ ih =>
    have hwrite : w.Emits ((w.setStorage address key value).addRefund refund) :=
      .of_logs_eq rfl rfl
    exact hwrite.trans ih
  | log l _ ih => exact (World.Emits.addLog _ l).trans ih

theorem Enacted.emits {ctx : BlockContext} {m : Message} {nonce : U64} {w v : World}
    (h : Enacted ctx m nonce w v) : w.Emits v := by
  cases h with
  | nothing => exact .of_logs_eq rfl rfl
  | @called target v hrecipient hprogram =>
    have hstart : w.Emits (InPlace.callWorld m target w) :=
      .of_logs_eq (InPlace.logs_callWorld m target w) (InPlace.extends_callWorld m target w).stamp
    exact hstart.trans hprogram.emits
  | created hrecipient hnonce hcode hdeposit =>
    have hlogs := InPlace.logs_creationWorld ctx m (Address.ofCreation m.sender nonce) w
    have hstamp :=
      (InPlace.extends_creationWorld ctx m (Address.ofCreation m.sender nonce) w).stamp
    rcases hdeposit with rfl | rfl
    · exact .of_logs_eq hlogs hstamp
    · exact .of_logs_eq hlogs hstamp

namespace Included

variable {ctx : BlockContext} {m : Message} {w v : World} {pool : GasPool} {a : Admission}
  {left : U64} {r : ExecutionResult} {x : Execution}

/-- Settlement emits nothing. -/
theorem logs_world (h : Included ctx m w pool a v left r x) : x.world.logs = v.logs := by
  rw [h.world]
  rfl

theorem emits (h : Included ctx m w pool a v left r x) : w.Emits x.world := by
  have hpurchase : w.Emits (a.world m w) := .of_logs_eq rfl rfl
  have hsettled : v.Emits x.world := .of_logs_eq h.logs_world (by rw [h.world]; rfl)
  exact (hpurchase.trans h.enacted.emits).trans hsettled

/-- A message that failed emits nothing. -/
theorem logs_of_failed (h : Included ctx m w pool a v left r x) (hfailed : r.failed) :
    x.world.logs = w.logs := by
  rw [h.logs_world, h.undone hfailed]
  rfl

/-- There are no more new logs than gas used. -/
theorem length_logs_le (h : Included ctx m w pool a v left r x) :
    x.world.logs.length ≤ w.logs.length + r.gasUsed.toNat := by
  rw [h.logs_world]
  exact h.logs_le

end Included

end TwinLedger
