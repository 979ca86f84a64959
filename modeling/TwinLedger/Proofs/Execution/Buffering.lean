import TwinLedger.Proofs.Execution.WriteSet

/-!
# Buffered changes are direct changes

A call may make any changes in any order, and afterwards nobody is to see whether they were made to
the world or collected in a write set and committed. Two things could come between. While the
changes are collected, a read has to find in the write set what it would have found in the world;
and the commit does not know the order of the changes any more. It goes through them sorted by kind
(`WriteKind`): first the accounts that start afresh, then all that were touched, then balances,
nonces, codes and slots, each kind in the order of the addresses.

One change is seen through the commit (`Change.commit_buffer`), so any number of them is, by
induction on the list of changes; and the committed world is what the write set reads as. That the
kinds may be sorted is a matter of addresses. Writes to different addresses do not meet
(`World.pending_performAll`), and at one address the sorted kinds build up just what the overlay
says (`Overlay.performAll_writes`):

> `buffer_simulates`: after any changes the write set reads as the world that was changed directly,
> and committing it, sorted by kind or not, gives that world.
-/

namespace TwinLedger

open Ranked (rank)

/-! ## Changes -/

/-- A change that the execution of a message makes. -/
inductive Change where
  | createAccount (a : Address)
  | setBalance (a : Address) (balance : U256)
  /-- Takes a value from one account, then gives it to another, which may be the same. -/
  | transfer (source target : Address) (value : U256)
  | setNonce (a : Address) (nonce : U64)
  | setCode (a : Address) (code : Bytes)
  | setStorage (a : Address) (key value : Hash)
  | addLog (l : Log)
  | addRefund (gas : U64)
  deriving DecidableEq

namespace Change

/-- Makes a change to the world. -/
def direct (w : World) : Change → World
  | .createAccount a => w.createAccount a
  | .setBalance a balance => w.setBalance a balance
  | .transfer source target value => (w.subBalance source value).addBalance target value
  | .setNonce a nonce => w.setNonce a nonce
  | .setCode a code => w.setCode a code
  | .setStorage a key value => w.setStorage a key value
  | .addLog l => w.addLog l
  | .addRefund gas => w.addRefund gas

/-- Makes a change to a write set over a world. -/
def buffer (base : World) (ws : WriteSet) : Change → WriteSet
  | .createAccount a => ws.createAccount a
  | .setBalance a balance => ws.setBalance a balance
  | .transfer source target value => ws.transfer base source target value
  | .setNonce a nonce => ws.setNonce a nonce
  | .setCode a code => ws.setCode a code
  | .setStorage a key value => ws.setStorage a key value
  | .addLog l => ws.addLog l
  | .addRefund gas => ws.addRefund gas

/-- Makes changes to the world, one after the other. -/
def directAll (w : World) (changes : List Change) : World := changes.foldl direct w

/-- Makes changes to a write set, one after the other. -/
def bufferAll (base : World) (ws : WriteSet) (changes : List Change) : WriteSet :=
  changes.foldl (buffer base) ws

/-- A change to the write set is, once committed, the change to the committed world. -/
theorem commit_buffer (base : World) (ws : WriteSet) (c : Change) :
    (c.buffer base ws).commit base = c.direct (ws.commit base) := by
  cases c with
  | createAccount a => exact ws.commit_createAccount base a
  | setBalance a balance => exact ws.commit_setBalance base a balance
  | transfer source target value => exact ws.commit_transfer base source target value
  | setNonce a nonce => exact ws.commit_setNonce base a nonce
  | setCode a code => exact ws.commit_setCode base a code
  | setStorage a key value => exact ws.commit_setStorage base a key value
  | addLog l => exact ws.commit_addLog base l
  | addRefund gas => exact ws.commit_addRefund base gas

theorem commit_bufferAll (base : World) (ws : WriteSet) (changes : List Change) :
    (bufferAll base ws changes).commit base = directAll (ws.commit base) changes := by
  induction changes generalizing ws with
  | nil => rfl
  | cons c rest ih =>
    show (bufferAll base (c.buffer base ws) rest).commit base = directAll (c.direct _) rest
    rw [ih, commit_buffer]

end Change

/-- All that can be read through a write set is what a world answers. -/
structure WriteSet.ReadsAs (ws : WriteSet) (base w : World) : Prop where
  exists? : ∀ a, ws.exists? base a = w.exists? a
  balance : ∀ a, ws.balance base a = w.balance a
  nonce : ∀ a, ws.nonce base a = w.nonce a
  code : ∀ a, ws.code base a = w.code a
  storage : ∀ a key, ws.storage base a key = w.storage a key

theorem WriteSet.readsAs_commit (ws : WriteSet) (base : World) :
    ws.ReadsAs base (ws.commit base) :=
  ⟨fun a => (ws.exists?_commit base a).symm, fun a => (ws.balance_commit base a).symm,
    fun a => (ws.nonce_commit base a).symm, fun a => (ws.code_commit base a).symm,
    fun a key => (ws.storage_commit base a key).symm⟩

/-! ## Sorted by kind -/

/-- What a write set holds of an account, in the order in which it is committed. -/
inductive WriteKind where
  | fresh
  | touched
  | balance
  | nonce
  | code
  | slot

/-- The writes of one kind that an overlay holds for its account. Every overlay touches. -/
def Overlay.writes (a : Address) (o : Overlay) : WriteKind → List World.Write
  | .fresh => if o.fresh then [.createAccount a] else []
  | .touched => [.touch a]
  | .balance => o.balance.toList.map (.setBalance a)
  | .nonce => o.nonce.toList.map (.setNonce a)
  | .code => o.code.toList.map (.setCode a)
  | .slot => o.slots.entries.map fun e => .setStorage a e.1 e.2

def WriteKind.all : List WriteKind := [.fresh, .touched, .balance, .nonce, .code, .slot]

/-- The writes of a write set, one kind after the other and each in the order of the addresses. -/
def WriteSet.writesByKind (ws : WriteSet) : List World.Write :=
  WriteKind.all.flatMap fun kind => ws.overlays.entries.flatMap fun e => e.2.writes e.1 kind

/-- Writes everything to the world, one kind after the other. -/
def WriteSet.commitByKind (ws : WriteSet) (w : World) : World :=
  (ws.logs.foldl World.addLog (w.performAll ws.writesByKind)).addRefund ws.refund

namespace Overlay

theorem address_of_mem_writes {a : Address} {o : Overlay} {kind : WriteKind} {x : World.Write}
    (h : x ∈ o.writes a kind) : x.address = a := by
  cases kind with
  | fresh =>
    have hfresh : x ∈ if o.fresh then [World.Write.createAccount a] else [] := h
    split at hfresh
    · rw [List.mem_singleton.1 hfresh]
      rfl
    · cases hfresh
  | touched =>
    rw [List.mem_singleton.1 h]
    rfl
  | balance =>
    obtain ⟨balance, -, rfl⟩ := List.mem_map.1 h
    rfl
  | nonce =>
    obtain ⟨nonce, -, rfl⟩ := List.mem_map.1 h
    rfl
  | code =>
    obtain ⟨code, -, rfl⟩ := List.mem_map.1 h
    rfl
  | slot =>
    obtain ⟨e, -, rfl⟩ := List.mem_map.1 h
    rfl

/-- A part that may have been written, put into an account that has been changed before. -/
theorem performAll_part {α : Type} (part : Option α) (write : α → World.Write)
    (get : Account → α) (put : Account → α → Account)
    (hkeep : ∀ account, put account (get account) = account) {a : Address}
    (hwrite : ∀ (v : World) (x : α), (write x).perform v = v.modify a (put · x)) (w : World)
    (f : Account → Account) :
    (w.modify a f).performAll (part.toList.map write) =
      w.modify a fun account => put (f account) (part.getD (get (f account))) := by
  cases part with
  | none =>
    apply World.modify_congr
    exact (hkeep _).symm
  | some x =>
    show (write x).perform (w.modify a f) = _
    rw [hwrite, World.modify_modify]
    rfl

/-- Slots written one after the other to an account that has been changed before. -/
theorem performAll_slots (w : World) (a : Address) (f : Account → Account)
    (slots : List (Hash × Hash)) :
    (w.modify a f).performAll (slots.map fun e => .setStorage a e.1 e.2) =
      w.modify a fun account =>
        { f account with
          storage := slots.foldl (fun storage e => Account.write storage e.1 e.2)
            (f account).storage } := by
  induction slots generalizing f with
  | nil => rfl
  | cons e rest ih =>
    show ((w.modify a f).setStorage a e.1 e.2).performAll (rest.map _) = _
    rw [World.setStorage, World.modify_modify, ih]
    rfl

/-- At one address the kinds, one after the other, are the overlay put onto the account: a later
kind undoes nothing of an earlier one, and what a fresh start takes away comes first. -/
theorem performAll_writes (w : World) (a : Address) (o : Overlay) :
    w.performAll (WriteKind.all.flatMap (o.writes a)) = w.modify a o.onto := by
  have hstart : (w.performAll (o.writes a .fresh)).performAll (o.writes a .touched) =
      w.modify a fun account => if o.fresh then { balance := account.balance } else account := by
    unfold writes
    cases o.fresh with
    | false => rfl
    | true => exact World.modify_modify w a (fun account => { balance := account.balance }) id
  have hbalance := performAll_part o.balance (.setBalance a) Account.balance
    (fun account balance => { account with balance }) (fun _ => rfl) (fun _ _ => rfl) w
  have hnonce := performAll_part o.nonce (.setNonce a) Account.nonce
    (fun account nonce => { account with nonce }) (fun _ => rfl) (fun _ _ => rfl) w
  have hcode := performAll_part o.code (.setCode a) Account.code
    (fun account code => { account with code }) (fun _ => rfl) (fun _ _ => rfl) w
  simp only [WriteKind.all, List.flatMap_cons, List.flatMap_nil, List.append_nil,
    World.performAll_append]
  rw [hstart]
  simp only [writes]
  rw [hbalance, hnonce, hcode, performAll_slots]
  apply World.modify_congr
  unfold onto
  cases o.fresh <;> rfl

end Overlay

/-- Of items that come from the entries of a map and carry the key of their entry, those with one
key are the items of its entry. -/
theorem SortedMap.filter_flatMap {κ ν β : Type} [Ranked κ] [DecidableEq κ] (items : κ → ν → List β)
    (key : β → κ) (hkey : ∀ k v, ∀ b ∈ items k v, key b = k) (m : SortedMap κ ν) (k : κ) :
    (m.entries.flatMap fun e => items e.1 e.2).filter (key · == k) =
      ((m.get? k).map (items k)).getD [] := by
  obtain ⟨entries, hsorted⟩ := m
  unfold get?
  induction entries with
  | nil => rfl
  | cons e rest ih =>
    obtain ⟨hfirst, hrest⟩ := List.pairwise_cons.1 hsorted
    rw [List.flatMap_cons, List.filter_append, ih hrest, lookup]
    by_cases hk : rank k = rank e.1
    · have hnone : lookup k rest = none := lookup_eq_none fun x hx => by
        rw [hk]
        exact Nat.ne_of_lt (hfirst x hx)
      have hall : (items e.1 e.2).filter (key · == e.1) = items e.1 e.2 :=
        List.filter_eq_self.2 fun b hb => beq_iff_eq.2 (hkey e.1 e.2 b hb)
      rw [if_pos hk, hnone, Ranked.eq_of_rank_eq hk, hall]
      exact List.append_nil _
    · have hnone : (items e.1 e.2).filter (key · == k) = [] :=
        List.filter_eq_nil_iff.2 fun b hb h =>
          hk (congrArg rank ((beq_iff_eq.1 h).symm.trans (hkey e.1 e.2 b hb)))
      rw [if_neg hk, hnone]
      rfl

namespace WriteSet

/-- At one address, sorting by kind leaves the kinds of the one overlay. -/
theorem filter_writesByKind (ws : WriteSet) (a : Address) :
    ws.writesByKind.filter (·.address == a) =
      ((ws.overlays.get? a).map fun o => WriteKind.all.flatMap (o.writes a)).getD [] := by
  have hkind : ∀ kind, (ws.overlays.entries.flatMap fun e => e.2.writes e.1 kind).filter
        (·.address == a) =
      ((ws.overlays.get? a).map fun o => o.writes a kind).getD [] := fun kind =>
    SortedMap.filter_flatMap (fun b o => Overlay.writes b o kind) World.Write.address
      (fun _ _ _ hx => Overlay.address_of_mem_writes hx) ws.overlays a
  unfold writesByKind
  rw [List.filter_flatMap]
  simp only [hkind]
  cases ws.overlays.get? a with
  | none => rfl
  | some o => rfl

/-- Sorted by kind or address by address, the commit is the same. -/
theorem commitByKind_eq (ws : WriteSet) (w : World) : ws.commitByKind w = ws.commit w := by
  have haccounts : w.performAll ws.writesByKind = ws.commitAccounts w := by
    rw [World.performAll_eq, commitAccounts_eq]
    refine World.ext_pending ?_ ?_ ?_ ?_ ?_
    · rfl
    · intro a
      have hcommit := pending_commit ws w a
      rw [commit_eq] at hcommit
      show (w.performAll ws.writesByKind).pending.get? a = (ws.commitAccounts w).pending.get? a
      rw [World.pending_performAll rfl rfl, filter_writesByKind]
      refine Eq.trans ?_ hcommit.symm
      cases ws.overlays.get? a with
      | none => rfl
      | some o =>
        show (w.performAll (WriteKind.all.flatMap (o.writes a))).pending.get? a = _
        rw [Overlay.performAll_writes]
        exact w.pending_setAccount_self a _
    · rfl
    · rfl
    · rfl
  unfold commitByKind
  rw [haccounts, commit_def]

end WriteSet

/-- Changes made to a write set, in any order and to any accounts, are changes made to the world.
After each of them everything reads as in the world that was changed directly, and committing them
in the end gives that world: both layers of accounts, logs with their stamps and numbers, refund
counter and stamp. That the commit goes through the writes sorted by kind, and not in their order,
makes no difference. -/
theorem buffer_simulates (w : World) (changes : List Change) :
    (∀ n, (Change.bufferAll w {} (changes.take n)).ReadsAs w
      (Change.directAll w (changes.take n))) ∧
    (Change.bufferAll w {} changes).commit w = Change.directAll w changes ∧
    (Change.bufferAll w {} changes).commitByKind w = Change.directAll w changes := by
  have hcommit : ∀ made, (Change.bufferAll w {} made).commit w = Change.directAll w made := by
    intro made
    rw [Change.commit_bufferAll, WriteSet.commit_empty]
  refine ⟨fun n => ?_, hcommit changes, ?_⟩
  · rw [← hcommit]
    exact WriteSet.readsAs_commit _ w
  · rw [WriteSet.commitByKind_eq, hcommit]

/-- An account that starts afresh loses the slot written before, and the start may be sorted to the
front: nothing that it would have taken away is left in the write set. -/
example :
    (Change.bufferAll {} {}
      [.setStorage 1 2 3, .setNonce 4 5, .createAccount 1, .setStorage 1 6 7]).writesByKind =
      [.createAccount 1, .touch 1, .touch 4, .setNonce 4 5, .setStorage 1 6 7] := by decide

end TwinLedger
