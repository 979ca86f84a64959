import TwinLedger.Execution.WriteSet
import TwinLedger.Proofs.World.Writes

/-!
# Write sets stand for direct writes

A write set is a world in waiting: `commit` says which one. Two facts make it as good as the world
itself:

> reading through the write set is reading the committed world (`balance_commit` and its
> siblings), and
> a write to the write set is, once committed, the same write to the committed world
> (`commit_setBalance` and its siblings).

Both come from one description of what committing does at an address, `pending_commit`: an overlay
goes onto the account of the world beneath, and an address without one is left alone. Committing
goes through the overlays by address and not in the order of the writes, so each write has to be
seen to land in the same place whatever came before it; that is `commit_modify`, and it asks of a
write only what it does to the one overlay.
-/

namespace TwinLedger

namespace Overlay

/-- The storage after the slots of an overlay have been written to it. -/
def slotsOnto (slots storage : SortedMap Hash Hash) : SortedMap Hash Hash :=
  slots.entries.foldl (fun storage e => Account.write storage e.1 e.2) storage

/-- A slot of the overlay is what the storage answers with, zero standing for no slot. -/
theorem get?_slotsOnto (slots storage : SortedMap Hash Hash) (q : Hash) :
    (slotsOnto slots storage).get? q =
      ((slots.get? q).map fun v => if v.isZero then none else some v).getD (storage.get? q) :=
  SortedMap.foldl_entries SortedMap.get? (fun storage e => Account.write storage e.1 e.2)
    (fun v _ => if v.isZero then none else some v)
    (fun storage key v => Account.get?_write_self storage key v)
    (fun storage _ v _ h => Account.get?_write_of_ne storage v h) slots storage q

/-- One more slot in the overlay is one more write to the storage. -/
theorem slotsOnto_insert (slots storage : SortedMap Hash Hash) (key value : Hash) :
    slotsOnto (slots.insert key value) storage =
      Account.write (slotsOnto slots storage) key value := by
  apply SortedMap.ext_get?
  intro q
  rw [get?_slotsOnto]
  by_cases h : q = key
  · rw [h, SortedMap.get?_insert_self, Account.get?_write_self]
    rfl
  · rw [SortedMap.get?_insert_of_ne _ _ h, Account.get?_write_of_ne _ _ h, get?_slotsOnto]

/-- Reading a slot through an overlay. Zero is read alike from a slot that is not there and from
one with zero written out. -/
theorem slot_onto (o : Overlay) (account : Account) (key : Hash) :
    (o.onto account).slot key =
      (o.slots.get? key).getD (if o.fresh then 0 else account.slot key) := by
  show ((slotsOnto o.slots (if o.fresh then .empty else account.storage)).get? key).getD 0 = _
  rw [get?_slotsOnto]
  cases o.slots.get? key with
  | none =>
    cases o.fresh
    · rfl
    · rfl
  | some v =>
    by_cases hv : v.isZero
    -- Writing zero took the slot away, and reading no slot gives zero back.
    · have hzero : v = 0 := FixedBytes.toNat_inj.1 (eq_of_beq hv)
      rw [hzero]
      rfl
    · simp [hv]

end Overlay

namespace WriteSet

/-! ## The committed world -/

/-- Stamping some logs touches nothing but the list of logs. -/
theorem foldl_addLog (logs : List Log) (w : World) :
    logs.foldl World.addLog w = { w with logs := (logs.foldl World.addLog w).logs } := by
  induction logs generalizing w with
  | nil => rfl
  | cons l rest ih =>
    rw [List.foldl_cons, ih]
    rfl

/-- What the logs become depends on the logs and the stamp alone. -/
theorem logs_foldl_addLog_congr (logs : List Log) {v w : World} (hlogs : v.logs = w.logs)
    (hstamp : v.stamp = w.stamp) :
    (logs.foldl World.addLog v).logs = (logs.foldl World.addLog w).logs := by
  induction logs generalizing v w with
  | nil => exact hlogs
  | cons l rest ih =>
    have hnext : (v.addLog l).logs = (w.addLog l).logs := by
      unfold World.addLog
      rw [hlogs, hstamp]
    exact ih hnext hstamp

theorem extends_foldl_addLog (logs : List Log) (w : World) :
    w.Extends (logs.foldl World.addLog w) := by
  induction logs generalizing w with
  | nil => exact .refl w
  | cons l rest ih => exact ((World.Extends.refl w).addLog l).trans (ih _)

/-- The accounts of a commit, before logs and refund. -/
def commitAccounts (ws : WriteSet) (w : World) : World :=
  ws.overlays.entries.foldl (fun w e => w.modify e.1 e.2.onto) w

/-- Committing accounts changes the pending layer and nothing else. -/
theorem commitAccounts_eq (ws : WriteSet) (w : World) :
    ws.commitAccounts w = { w with pending := (ws.commitAccounts w).pending } := by
  unfold commitAccounts
  induction ws.overlays.entries generalizing w with
  | nil => rfl
  | cons e rest ih =>
    rw [List.foldl_cons, ih]
    rfl

theorem commit_def (ws : WriteSet) (w : World) :
    ws.commit w =
      (ws.logs.foldl World.addLog (ws.commitAccounts w)).addRefund ws.refund := rfl

theorem commit_eq (ws : WriteSet) (w : World) :
    ws.commit w =
      { w with
        pending := (ws.commitAccounts w).pending
        logs := (ws.logs.foldl World.addLog w).logs
        refund := w.refund.satAdd ws.refund } := by
  rw [commit_def, commitAccounts_eq, foldl_addLog,
    logs_foldl_addLog_congr (v := { w with pending := (ws.commitAccounts w).pending })
      (w := w) ws.logs rfl rfl]
  rfl

/-- What is known of an address while a world is written to: its pending entry and its account. -/
private def entryAndAccount (w : World) (a : Address) : Option Account × Account :=
  (w.pending.get? a, w.accountD a)

/-- An overlay goes onto the account of the world beneath; an address without one keeps its
entry. -/
theorem pending_commit (ws : WriteSet) (w : World) (a : Address) :
    (ws.commit w).pending.get? a =
      ((ws.overlays.get? a).map fun o => some (o.onto (w.accountD a))).getD
        (w.pending.get? a) := by
  have hfold : entryAndAccount (ws.commitAccounts w) a =
      ((ws.overlays.get? a).map fun o =>
        (some (o.onto (w.accountD a)), o.onto (w.accountD a))).getD (entryAndAccount w a) :=
    SortedMap.foldl_entries entryAndAccount
      (fun (w : World) (e : Address × Overlay) => w.modify e.1 e.2.onto)
      (fun o seen => (some (o.onto seen.2), o.onto seen.2))
      (fun w b _ => Prod.ext (w.pending_setAccount_self b _) (w.accountD_setAccount_self b _))
      (fun w _ _ _ h =>
        Prod.ext (w.pending_setAccount_of_ne _ h) (w.accountD_setAccount_of_ne _ h))
      ws.overlays w a
  rw [commit_eq]
  cases ho : ws.overlays.get? a with
  | none =>
    rw [ho] at hfold
    exact congrArg Prod.fst hfold
  | some o =>
    rw [ho] at hfold
    exact congrArg Prod.fst hfold

/-- The account of the committed world is the account beneath with the overlay put on. -/
theorem accountD_commit (ws : WriteSet) (w : World) (a : Address) :
    (ws.commit w).accountD a = (ws.overlay a).onto (w.accountD a) := by
  have hpending := pending_commit ws w a
  unfold overlay
  cases ho : ws.overlays.get? a with
  | none =>
    rw [ho] at hpending
    exact World.accountD_of_not_pending (by rw [commit_eq]) hpending
  | some o =>
    rw [ho] at hpending
    exact World.accountD_of_pending hpending

/-- Committing only writes: the world beneath can be had back. -/
theorem extends_commit (ws : WriteSet) (w : World) : w.Extends (ws.commit w) := by
  rw [commit_eq]
  exact ⟨rfl, rfl, (extends_foldl_addLog ws.logs w).logs⟩

/-- Without writes there is nothing to commit. -/
@[simp] theorem commit_empty (w : World) : ({} : WriteSet).commit w = w := by
  show w.addRefund 0 = w
  rw [World.addRefund, Word.satAdd_zero]

/-! ## Reading through the write set -/

variable (ws : WriteSet) (w : World) (a : Address)

theorem balance_commit : (ws.commit w).balance a = ws.balance w a := by
  rw [World.balance, accountD_commit]
  rfl

theorem nonce_commit : (ws.commit w).nonce a = ws.nonce w a := by
  rw [World.nonce, accountD_commit]
  rfl

theorem code_commit : (ws.commit w).code a = ws.code w a := by
  rw [World.code, accountD_commit]
  rfl

theorem storage_commit (key : Hash) : (ws.commit w).storage a key = ws.storage w a key := by
  rw [World.storage, accountD_commit, Overlay.slot_onto]
  rfl

theorem exists?_commit : (ws.commit w).exists? a = ws.exists? w a := by
  have hpending := pending_commit ws w a
  unfold World.exists? World.account? exists? SortedMap.contains
  rw [hpending, show (ws.commit w).finalised = w.finalised by rw [commit_eq]]
  cases ws.overlays.get? a with
  | none => rfl
  | some o => rfl

/-! ## Writing -/

/-- A write to one overlay is the write to the account that the overlay makes of it. -/
theorem commit_modify {f : Overlay → Overlay} {g : Account → Account}
    (h : ∀ account, (f (ws.overlay a)).onto account = g ((ws.overlay a).onto account)) :
    (ws.modify a f).commit w = (ws.commit w).modify a g := by
  apply World.ext_pending
  · rw [commit_eq, commit_eq]
    rfl
  · intro b
    rw [pending_commit]
    -- Only the overlay of the address has changed, and so only its entry can.
    by_cases hb : b = a
    · rw [hb, World.modify, World.pending_setAccount_self, accountD_commit, ← h]
      show ((SortedMap.get? (ws.overlays.insert a (f (ws.overlay a))) a).map _).getD _ = _
      rw [SortedMap.get?_insert_self]
      rfl
    · rw [World.modify, World.pending_setAccount_of_ne _ _ hb, pending_commit]
      show ((SortedMap.get? (ws.overlays.insert a (f (ws.overlay a))) b).map _).getD _ = _
      rw [SortedMap.get?_insert_of_ne _ _ hb]
  · rw [commit_eq, commit_eq]
    rfl
  · rw [commit_eq, commit_eq]
    rfl
  · rw [commit_eq, commit_eq]
    rfl

theorem commit_createAccount :
    (ws.createAccount a).commit w = (ws.commit w).createAccount a :=
  commit_modify ws w a (g := fun account => { balance := account.balance }) fun _ => rfl

theorem commit_setBalance (balance : U256) :
    (ws.setBalance a balance).commit w = (ws.commit w).setBalance a balance :=
  commit_modify ws w a fun _ => rfl

theorem commit_setNonce (nonce : U64) :
    (ws.setNonce a nonce).commit w = (ws.commit w).setNonce a nonce :=
  commit_modify ws w a fun _ => rfl

theorem commit_setCode (code : Bytes) :
    (ws.setCode a code).commit w = (ws.commit w).setCode a code :=
  commit_modify ws w a fun _ => rfl

theorem commit_setStorage (key value : Hash) :
    (ws.setStorage a key value).commit w = (ws.commit w).setStorage a key value := by
  apply commit_modify
  intro account
  show Account.mk _ _ _ (Overlay.slotsOnto ((ws.overlay a).slots.insert key value) _) = _
  rw [Overlay.slotsOnto_insert]
  rfl

/-- A transfer takes from one account and then gives to the other, which may be the same. -/
theorem commit_transfer (source target : Address) (value : U256) :
    (ws.transfer w source target value).commit w =
      ((ws.commit w).subBalance source value).addBalance target value := by
  unfold transfer
  -- The second balance is read after the first was written, on both sides.
  rw [commit_setBalance, commit_setBalance, ← balance_commit, ← balance_commit,
    commit_setBalance]
  rfl

theorem commit_addLog (l : Log) : (ws.addLog l).commit w = (ws.commit w).addLog l := by
  rw [commit_def, commit_def]
  show ((ws.logs ++ [l]).foldl World.addLog (ws.commitAccounts w)).addRefund ws.refund = _
  rw [List.foldl_append]
  rfl

theorem commit_addRefund (gas : U64) :
    (ws.addRefund gas).commit w = (ws.commit w).addRefund gas := by
  rw [commit_eq, commit_eq]
  show World.mk _ _ _ (w.refund.satAdd (ws.refund.satAdd gas)) _ = _
  rw [← Word.satAdd_assoc]
  rfl

end WriteSet

end TwinLedger
