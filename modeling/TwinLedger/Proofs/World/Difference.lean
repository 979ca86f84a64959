import TwinLedger.World.Diff
import TwinLedger.Proofs.World.Writes

/-!
# The list of differences is complete

Two worlds have the same contents if their accounts, both layers taken together, their refund
counters and their logs are the same. The list of their differences says whether they do:

> `diff_eq_nil_iff`: nothing is listed exactly if the contents are the same;
> `diff_swap`: seen from the other side the list is the same, with left and right exchanged.

The list is put together from parts, one for each field, slot, address and log, and both are
proved part by part. The parts go through the keys of both sides taken together, so nothing that is
on one side only is passed over (`contains_overlay`), and they go through them in an order that
does not depend on which side is which (`keys_overlay_comm`).
-/

namespace TwinLedger

/-! ## The keys of two maps -/

namespace SortedMap

variable {κ ν : Type} [Ranked κ]

theorem contains_overlay (m n : SortedMap κ ν) (k : κ) :
    (m.overlay n).contains k = (m.contains k || n.contains k) := by
  unfold contains
  rw [get?_overlay]
  cases n.get? k <;> cases m.get? k <;> rfl

/-- A key of neither map has no value in either. -/
theorem get?_eq_none_of_not_mem {m n : SortedMap κ ν} {k : κ} (h : k ∉ (m.overlay n).keys) :
    m.get? k = none ∧ n.get? k = none := by
  rw [mem_keys, contains_overlay, Bool.or_eq_true, not_or] at h
  exact ⟨Option.not_isSome_iff_eq_none.1 h.1, Option.not_isSome_iff_eq_none.1 h.2⟩

theorem keys_overlay_comm (m n : SortedMap κ ν) : (m.overlay n).keys = (n.overlay m).keys := by
  apply keys_congr
  intro k
  rw [contains_overlay, contains_overlay, Bool.or_comm]

end SortedMap

/-! ## Exchanging left and right -/

namespace AccountDifference

/-- The same disagreement seen from the other side. -/
def swap : AccountDifference → AccountDifference
  | .nonce l r => .nonce r l
  | .balance l r => .balance r l
  | .code l r => .code r l
  | .storage key l r => .storage key r l

end AccountDifference

namespace Difference

/-- The same disagreement seen from the other side. -/
def swap : Difference → Difference
  | .missingRight a => .missingLeft a
  | .missingLeft a => .missingRight a
  | .account a d => .account a d.swap
  | .refund l r => .refund r l
  | .logCount l r => .logCount r l
  | .log i l r => .log i r l

/-- A field that is listed if its values differ is not listed exactly if they are equal. -/
theorem ite_eq_nil_iff {α β : Type} [DecidableEq α] {l r : α} {d : β} :
    (if l = r then [] else [d]) = [] ↔ l = r := by
  split
  · next h => exact iff_of_true rfl h
  · next h => exact iff_of_false (List.cons_ne_nil d []) h

/-- A field that is listed if its values differ is listed from both sides or from neither. -/
theorem map_ite {α β : Type} [DecidableEq α] {l r : α} {d d' : β} {f : β → β} (h : f d = d') :
    (if l = r then [] else [d]).map f = if r = l then [] else [d'] := by
  by_cases hlr : l = r
  · rw [if_pos hlr, if_pos hlr.symm]
    rfl
  · rw [if_neg hlr, if_neg (Ne.symm hlr), ← h]
    rfl

end Difference

/-! ## Accounts -/

namespace Account

theorem diffSlot_eq_none_iff {l r : Account} {key : Hash} :
    diffSlot l r key = none ↔ l.storage.get? key = r.storage.get? key := by
  unfold diffSlot
  split
  · next h => exact iff_of_true rfl h
  · next h => exact iff_of_false (Option.some_ne_none _) h

theorem diffSlot_swap (l r : Account) (key : Hash) :
    diffSlot r l key = (diffSlot l r key).map AccountDifference.swap := by
  unfold diffSlot
  by_cases h : l.storage.get? key = r.storage.get? key
  · rw [if_pos h, if_pos h.symm]
    rfl
  · rw [if_neg h, if_neg (Ne.symm h)]
    rfl

/-- The slots of both sides are compared, and a slot that neither has is no difference. -/
theorem filterMap_diffSlot_eq_nil_iff {l r : Account} :
    (l.storage.overlay r.storage).keys.filterMap (diffSlot l r) = [] ↔ l.storage = r.storage := by
  rw [List.filterMap_eq_nil_iff]
  constructor
  · intro h
    apply SortedMap.ext_get?
    intro key
    by_cases hkey : key ∈ (l.storage.overlay r.storage).keys
    · exact diffSlot_eq_none_iff.1 (h key hkey)
    · obtain ⟨hl, hr⟩ := SortedMap.get?_eq_none_of_not_mem hkey
      rw [hl, hr]
  · intro h key _
    exact diffSlot_eq_none_iff.2 (by rw [h])

/-- Two accounts without a difference are equal. -/
theorem diff_eq_nil_iff {l r : Account} : l.diff r = [] ↔ l = r := by
  unfold diff
  rw [List.append_eq_nil_iff, List.append_eq_nil_iff, List.append_eq_nil_iff,
    Difference.ite_eq_nil_iff, Difference.ite_eq_nil_iff, Difference.ite_eq_nil_iff,
    filterMap_diffSlot_eq_nil_iff]
  constructor
  · rintro ⟨⟨⟨hnonce, hbalance⟩, hcode⟩, hstorage⟩
    cases l
    cases r
    simp only at hnonce hbalance hcode hstorage
    rw [hnonce, hbalance, hcode, hstorage]
  · rintro rfl
    exact ⟨⟨⟨rfl, rfl⟩, rfl⟩, rfl⟩

theorem diff_swap (l r : Account) : r.diff l = (l.diff r).map AccountDifference.swap := by
  have hslots : (r.storage.overlay l.storage).keys.filterMap (diffSlot r l) =
      ((l.storage.overlay r.storage).keys.filterMap (diffSlot l r)).map AccountDifference.swap := by
    rw [List.map_filterMap, SortedMap.keys_overlay_comm]
    exact congrArg (List.filterMap · _) (funext (diffSlot_swap l r))
  unfold diff
  rw [List.map_append, List.map_append, List.map_append, hslots, Difference.map_ite rfl,
    Difference.map_ite rfl, Difference.map_ite rfl]
  rfl

end Account

/-! ## Worlds -/

namespace World

theorem diffAt_eq_nil_iff {l r : SortedMap Address Account} {a : Address} :
    diffAt l r a = [] ↔ l.get? a = r.get? a := by
  unfold diffAt
  cases l.get? a with
  | none =>
    cases r.get? a with
    | none => exact iff_of_true rfl rfl
    | some y => exact iff_of_false (List.cons_ne_nil _ _) (Option.some_ne_none y).symm
  | some x =>
    cases r.get? a with
    | none => exact iff_of_false (List.cons_ne_nil _ _) (Option.some_ne_none x)
    | some y => rw [List.map_eq_nil_iff, Account.diff_eq_nil_iff, Option.some.injEq]

theorem diffAt_swap (l r : SortedMap Address Account) (a : Address) :
    diffAt r l a = (diffAt l r a).map Difference.swap := by
  unfold diffAt
  cases l.get? a with
  | none => cases r.get? a <;> rfl
  | some x =>
    cases r.get? a with
    | none => rfl
    | some y =>
      simp only
      rw [Account.diff_swap, List.map_map, List.map_map]
      rfl

/-- The accounts of both sides are compared, and an address that neither has is no difference. -/
theorem flatMap_diffAt_eq_nil_iff {l r : SortedMap Address Account} :
    (l.overlay r).keys.flatMap (diffAt l r) = [] ↔ l = r := by
  rw [List.flatMap_eq_nil_iff]
  constructor
  · intro h
    apply SortedMap.ext_get?
    intro a
    by_cases ha : a ∈ (l.overlay r).keys
    · exact diffAt_eq_nil_iff.1 (h a ha)
    · obtain ⟨hl, hr⟩ := SortedMap.get?_eq_none_of_not_mem ha
      rw [hl, hr]
  · intro h a _
    exact diffAt_eq_nil_iff.2 (by rw [h])

/-- Where two lists of logs are equally long, the places tell whether they are equal. -/
theorem diffLogs_eq_nil_iff {i : Nat} {l r : List Log} (h : l.length = r.length) :
    diffLogs i l r = [] ↔ l = r := by
  induction l generalizing i r with
  | nil =>
    cases r with
    | nil => exact iff_of_true rfl rfl
    | cons y rs => cases h
  | cons x ls ih =>
    cases r with
    | nil => cases h
    | cons y rs =>
      rw [diffLogs, List.append_eq_nil_iff, Difference.ite_eq_nil_iff, ih (Nat.succ.inj h),
        List.cons.injEq]

theorem diffLogs_swap (i : Nat) (l r : List Log) :
    diffLogs i r l = (diffLogs i l r).map Difference.swap := by
  induction l generalizing i r with
  | nil => cases r <;> rfl
  | cons x ls ih =>
    cases r with
    | nil => rfl
    | cons y rs =>
      rw [diffLogs, diffLogs, List.map_append, Difference.map_ite rfl, ih]
      rfl

/-- Nothing is listed exactly if accounts, refund counter and logs are the same. -/
theorem diff_eq_nil_iff {l r : World} :
    l.diff r = [] ↔ l.accounts = r.accounts ∧ l.refund = r.refund ∧ l.logs = r.logs := by
  unfold diff
  rw [List.append_eq_nil_iff, List.append_eq_nil_iff, List.append_eq_nil_iff,
    flatMap_diffAt_eq_nil_iff, Difference.ite_eq_nil_iff, Difference.ite_eq_nil_iff]
  constructor
  · rintro ⟨⟨⟨haccounts, hrefund⟩, hcount⟩, hlogs⟩
    exact ⟨haccounts, hrefund, (diffLogs_eq_nil_iff hcount).1 hlogs⟩
  · rintro ⟨haccounts, hrefund, hlogs⟩
    have hcount := congrArg List.length hlogs
    exact ⟨⟨⟨haccounts, hrefund⟩, hcount⟩, (diffLogs_eq_nil_iff hcount).2 hlogs⟩

/-- From the other side the same differences are listed, in the same order. -/
theorem diff_swap (l r : World) : r.diff l = (l.diff r).map Difference.swap := by
  have haccounts : (r.accounts.overlay l.accounts).keys.flatMap (diffAt r.accounts l.accounts) =
      ((l.accounts.overlay r.accounts).keys.flatMap (diffAt l.accounts r.accounts)).map
        Difference.swap := by
    rw [List.map_flatMap, SortedMap.keys_overlay_comm]
    exact congrArg (List.flatMap · _) (funext (diffAt_swap l.accounts r.accounts))
  unfold diff
  rw [List.map_append, List.map_append, List.map_append, haccounts, Difference.map_ite rfl,
    Difference.map_ite rfl, diffLogs_swap]
  rfl

end World

end TwinLedger
