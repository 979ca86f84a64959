import Mathlib.Data.List.Nodup
import TwinLedger.Diagnostics.Bundle
import TwinLedger.Proofs.Data.Decimal
import TwinLedger.Proofs.Diagnostics.Disk

/-!
# Names of files in a bundle

A bundle has a summary, a header and a transaction, and for each side its logs and its receipt. The
first characters of a name tell which of these it is, and the numeral in the name of a log tells
which log, so

> different files have different names (`FileName.text_inj`), whatever the two sides logged and
> returned (`FileName.nodup_order`), and each name is good for a path (`FileName.isName_text`).
-/

namespace TwinLedger

/-- The files that a bundle can have. -/
inductive FileName where
  | summary
  | header
  | transaction
  | log (seat : Seat) (i : Nat)
  | receipt (seat : Seat)
  deriving DecidableEq

namespace FileName

def text : FileName → String
  | summary => "summary.json"
  | header => "header.json"
  | transaction => "tx.json"
  | log seat i => BranchArtifacts.logName seat i
  | receipt seat => BranchArtifacts.receiptName seat

theorem isName_text (n : FileName) : Path.IsName n.text := by
  cases n with
  | summary => exact Path.isName_of_mem (c := 's') (by decide) (by decide) (by decide)
  | header => exact Path.isName_of_mem (c := 'h') (by decide) (by decide) (by decide)
  | transaction => exact Path.isName_of_mem (c := 't') (by decide) (by decide) (by decide)
  | log seat i =>
    refine Path.isName_of_mem (c := 'l') ?_ (by decide) ?_
    · simp only [text, BranchArtifacts.logName, String.toList_append]
      exact List.mem_cons_self
    · intro hslash
      simp only [text, BranchArtifacts.logName, String.toList_append, List.mem_append] at hslash
      rcases hslash with (((hslash | hslash) | hslash) | hslash) | hslash
      · exact absurd hslash (by decide)
      · cases seat <;> exact absurd hslash (by decide)
      · exact absurd hslash (by decide)
      · exact absurd (isDigit_of_mem_toString hslash) (by decide)
      · exact absurd hslash (by decide)
  | receipt seat =>
    cases seat <;> exact Path.isName_of_mem (c := 'r') (by decide) (by decide) (by decide)

/-- The name without the position of a log. -/
def shape : FileName → FileName
  | log seat _ => log seat 0
  | n => n

def shapes : List FileName :=
  [summary, header, transaction, log .alternate 0, log .reference 0, receipt .alternate,
    receipt .reference]

theorem shape_mem (n : FileName) : n.shape ∈ shapes := by
  unfold shapes
  cases n with
  | log seat i => cases seat <;> simp [shape]
  | receipt seat => cases seat <;> simp [shape]
  | _ => simp [shape]

/-- The first characters of a name tell its shape. -/
theorem opening_shape (n : FileName) : n.shape.text.toList.take 9 = n.text.toList.take 9 := by
  cases n with
  | log seat i =>
    simp only [shape, text, BranchArtifacts.logName, String.toList_append]
    cases seat <;> rfl
  | _ => rfl

theorem shape_inj_of_opening : ∀ a ∈ shapes, ∀ b ∈ shapes,
    a.text.toList.take 9 = b.text.toList.take 9 → a = b := by
  decide

/-- Different files have different names. -/
theorem text_inj {a b : FileName} : a.text = b.text ↔ a = b := by
  refine ⟨fun h => ?_, congrArg text⟩
  have hshape : a.shape = b.shape := by
    refine shape_inj_of_opening _ a.shape_mem _ b.shape_mem ?_
    rw [opening_shape, opening_shape, h]
  cases a with
  | log seat i =>
    cases b with
    | log seat' j =>
      cases hshape
      simp only [text, BranchArtifacts.logName, String.append_left_inj,
        String.append_right_inj] at h
      rw [toString_nat_inj.1 h]
    | _ => cases hshape
  | _ =>
    cases b with
    | log seat' j => cases hshape
    | _ => exact hshape

/-- The files of one side, in order: one for each log, and one for a receipt. -/
def ofSide (seat : Seat) (logs : Nat) (receipt : Bool) : List FileName :=
  (List.range logs).map (log seat) ++ if receipt then [.receipt seat] else []

theorem nodup_ofSide (seat : Seat) (logs : Nat) (receipt : Bool) :
    (ofSide seat logs receipt).Nodup := by
  refine List.nodup_append.2 ⟨?_, ?_, ?_⟩
  · exact List.nodup_range.map fun i j h => (log.inj h).2
  · split
    · exact List.nodup_singleton _
    · exact List.nodup_nil
  · rintro n hlog n' hreceipt rfl
    obtain ⟨i, -, rfl⟩ := List.mem_map.1 hlog
    split at hreceipt
    · cases List.mem_singleton.1 hreceipt
    · cases hreceipt

/-- The seat of a file that is about one side. -/
def seat? : FileName → Option Seat
  | log seat _ | receipt seat => some seat
  | _ => none

theorem seat?_of_mem_ofSide {seat : Seat} {logs : Nat} {receipt : Bool} {n : FileName}
    (h : n ∈ ofSide seat logs receipt) : n.seat? = some seat := by
  rcases List.mem_append.1 h with hlog | hreceipt
  · obtain ⟨i, -, rfl⟩ := List.mem_map.1 hlog
    rfl
  · split at hreceipt
    · rw [List.mem_singleton.1 hreceipt]
      rfl
    · cases hreceipt

/-- The files of two sides are different from each other and from the three of the whole. -/
theorem nodup_order (logs logs' : Nat) (receipt receipt' : Bool) :
    ([summary, header, transaction] ++ (ofSide .alternate logs receipt ++
      ofSide .reference logs' receipt')).Nodup := by
  refine List.nodup_append.2 ⟨by decide, ?_, ?_⟩
  · refine List.nodup_append.2 ⟨nodup_ofSide _ _ _, nodup_ofSide _ _ _, ?_⟩
    rintro n halternate n' hreference rfl
    cases (seat?_of_mem_ofSide halternate).symm.trans (seat?_of_mem_ofSide hreference)
  · rintro n hwhole n' hside rfl
    have hseat : ∀ n ∈ [summary, header, transaction], n.seat? = none := by decide
    rcases List.mem_append.1 hside with hside | hside
    · cases (hseat n hwhole).symm.trans (seat?_of_mem_ofSide hside)
    · cases (hseat n hwhole).symm.trans (seat?_of_mem_ofSide hside)

end FileName

end TwinLedger
