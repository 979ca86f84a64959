import TwinLedger.World.Journal

/-!
# Writes to the world

A write to an account replaces its entry in the pending layer and leaves all other entries alone,
so two worlds are equal once their pending layers answer every look-up alike and the rest of them
is equal (`World.ext_pending`). What follows from the one entry is said here, and nothing later
looks into `setAccount` again.

The writes that the program knows are listed as data (`Write`), and each of them is a replacement
of the one account, by what the address answered before (`Write.perform_eq`).

The last part is about going back:

> `Extends w v`: `v` has the finalised layer and the stamp of `w`, and the logs of `w` in front.

Every write that execution makes keeps this, and it is all that a checkpoint needs:
`restore_checkpoint` gives back the world in which the checkpoint was taken, whatever was written
since.
-/

namespace TwinLedger

/-! ## One slot written -/

namespace Account

theorem get?_write_self (storage : SortedMap Hash Hash) (key value : Hash) :
    (write storage key value).get? key = if value.isZero then none else some value := by
  unfold write
  split
  · exact SortedMap.get?_erase_self _ _
  · exact SortedMap.get?_insert_self _ _ _

theorem get?_write_of_ne (storage : SortedMap Hash Hash) {key q : Hash} (value : Hash)
    (h : q ≠ key) : (write storage key value).get? q = storage.get? q := by
  unfold write
  split
  · exact SortedMap.get?_erase_of_ne _ h
  · exact SortedMap.get?_insert_of_ne _ _ h

end Account

namespace World

/-- Worlds are known by the look-ups of their pending layers and by the rest of them. -/
theorem ext_pending {v w : World} (hfinalised : v.finalised = w.finalised)
    (hpending : ∀ a, v.pending.get? a = w.pending.get? a) (hlogs : v.logs = w.logs)
    (hrefund : v.refund = w.refund) (hstamp : v.stamp = w.stamp) : v = w := by
  have hpending : v.pending = w.pending := SortedMap.ext_get? hpending
  cases v
  cases w
  simp only at hfinalised hpending hlogs hrefund hstamp
  rw [hfinalised, hpending, hlogs, hrefund, hstamp]

/-! ## One account written -/

/-- An address other than the one written keeps its entry. -/
theorem pending_setAccount_of_ne (w : World) {a b : Address} (account : Account) (h : b ≠ a) :
    (w.setAccount a account).pending.get? b = w.pending.get? b :=
  SortedMap.get?_insert_of_ne _ _ h

theorem pending_setAccount_self (w : World) (a : Address) (account : Account) :
    (w.setAccount a account).pending.get? a = some account :=
  SortedMap.get?_insert_self _ _ _

theorem account?_setAccount_self (w : World) (a : Address) (account : Account) :
    (w.setAccount a account).account? a = some account := by
  rw [account?, pending_setAccount_self]
  rfl

theorem account?_setAccount_of_ne (w : World) {a b : Address} (account : Account) (h : b ≠ a) :
    (w.setAccount a account).account? b = w.account? b := by
  rw [account?, pending_setAccount_of_ne w account h]
  rfl

theorem accountD_setAccount_self (w : World) (a : Address) (account : Account) :
    (w.setAccount a account).accountD a = account := by
  rw [accountD, account?_setAccount_self]
  rfl

theorem accountD_setAccount_of_ne (w : World) {a b : Address} (account : Account) (h : b ≠ a) :
    (w.setAccount a account).accountD b = w.accountD b := by
  rw [accountD, account?_setAccount_of_ne w account h]
  rfl

/-- An account in the pending layer is what a look-up finds. -/
theorem accountD_of_pending {w : World} {a : Address} {account : Account}
    (h : w.pending.get? a = some account) : w.accountD a = account := by
  rw [accountD, account?, h]
  rfl

/-- Where an address is not pending, the account is that of the finalised layer. -/
theorem accountD_of_not_pending {v w : World} {a : Address} (hfinalised : v.finalised = w.finalised)
    (h : v.pending.get? a = w.pending.get? a) : v.accountD a = w.accountD a := by
  rw [accountD, accountD, account?, account?, h, hfinalised]

/-! ## The two layers taken together -/

/-- The layers taken together answer as the world does. -/
theorem get?_accounts (w : World) (a : Address) : w.accounts.get? a = w.account? a :=
  SortedMap.get?_overlay w.finalised w.pending a

/-- A write puts the account into the layers taken together. -/
theorem accounts_setAccount (w : World) (a : Address) (account : Account) :
    (w.setAccount a account).accounts = w.accounts.insert a account := by
  apply SortedMap.ext_get?
  intro b
  rw [get?_accounts]
  by_cases hb : b = a
  · rw [hb, account?_setAccount_self, SortedMap.get?_insert_self]
  · rw [account?_setAccount_of_ne _ _ hb, SortedMap.get?_insert_of_ne _ _ hb, get?_accounts]

/-! ## One account changed -/

theorem accountD_modify_self (w : World) (a : Address) (f : Account → Account) :
    (w.modify a f).accountD a = f (w.accountD a) := accountD_setAccount_self _ _ _

theorem accountD_modify_of_ne (w : World) {a b : Address} (f : Account → Account) (h : b ≠ a) :
    (w.modify a f).accountD b = w.accountD b := accountD_setAccount_of_ne _ _ h

/-- What a write leaves alone in the account it changes, it leaves alone everywhere. -/
theorem setAccount_frame {α : Type} (field : Account → α) {w : World} {a : Address}
    {account : Account} (h : field account = field (w.accountD a)) (b : Address) :
    field ((w.setAccount a account).accountD b) = field (w.accountD b) := by
  by_cases hb : b = a
  · rw [hb, accountD_setAccount_self, h]
  · rw [accountD_setAccount_of_ne w account hb]

/-- Of two accounts written to one address the last one stays. -/
theorem setAccount_setAccount (w : World) (a : Address) (first last : Account) :
    (w.setAccount a first).setAccount a last = w.setAccount a last := by
  refine ext_pending rfl ?_ rfl rfl rfl
  intro b
  by_cases hb : b = a
  · rw [hb, pending_setAccount_self, pending_setAccount_self]
  · rw [pending_setAccount_of_ne _ _ hb, pending_setAccount_of_ne _ _ hb,
      pending_setAccount_of_ne _ _ hb]

/-- Two changes of one account are one change. -/
theorem modify_modify (w : World) (a : Address) (f g : Account → Account) :
    (w.modify a f).modify a g = w.modify a fun account => g (f account) := by
  rw [modify, accountD_modify_self]
  exact setAccount_setAccount w a _ _

/-- Two accounts can be written in either order. -/
theorem setAccount_comm (w : World) {a b : Address} (hab : a ≠ b) (x y : Account) :
    (w.setAccount a x).setAccount b y = (w.setAccount b y).setAccount a x := by
  refine ext_pending rfl ?_ rfl rfl rfl
  intro c
  by_cases hca : c = a
  · rw [hca, pending_setAccount_self, pending_setAccount_of_ne _ _ hab, pending_setAccount_self]
  · rw [pending_setAccount_of_ne (w.setAccount b y) x hca]
    by_cases hcb : c = b
    · rw [hcb, pending_setAccount_self, pending_setAccount_self]
    · rw [pending_setAccount_of_ne _ _ hcb, pending_setAccount_of_ne _ _ hcb,
        pending_setAccount_of_ne _ _ hca]

/-- Two accounts can be changed in either order. -/
theorem modify_comm (w : World) {a b : Address} (hab : a ≠ b) (f g : Account → Account) :
    (w.modify a f).modify b g = (w.modify b g).modify a f := by
  rw [modify, accountD_modify_of_ne w f hab.symm, modify.eq_def (w.modify b g),
    accountD_modify_of_ne w g hab]
  exact setAccount_comm w hab _ _

/-- A change is known by what it makes of the account. -/
theorem modify_congr {w : World} {a : Address} {f g : Account → Account}
    (h : f (w.accountD a) = g (w.accountD a)) : w.modify a f = w.modify a g :=
  congrArg (w.setAccount a) h

/-- A write takes no account away. -/
theorem exists?_setAccount {w : World} {b : Address} (h : w.exists? b = true) (a : Address)
    (account : Account) : (w.setAccount a account).exists? b = true := by
  by_cases hb : b = a
  · rw [hb, exists?, account?_setAccount_self]
    rfl
  · rw [exists?, account?_setAccount_of_ne w account hb]
    exact h

/-- An account that is not there reads as one without anything. -/
theorem accountD_of_not_exists {w : World} {a : Address} (h : w.exists? a = false) :
    w.accountD a = {} := by
  have hnone : w.account? a = none := Option.not_isSome_iff_eq_none.1 (by
    rw [exists?] at h
    rw [h]
    exact Bool.false_ne_true)
  rw [accountD, hnone]
  rfl

/-- Creating an account that was not there shows nowhere. -/
theorem createAccount_frame {α : Type} (field : Account → α) {w : World} {a : Address}
    (h : w.exists? a = false) (b : Address) :
    field ((w.createAccount a).accountD b) = field (w.accountD b) := by
  have hnone := accountD_of_not_exists h
  have hbalance : w.balance a = 0 := congrArg Account.balance hnone
  apply setAccount_frame field
  rw [hnone, hbalance]

/-- A payment changes two balances. -/
theorem pay_frame {α : Type} (field : Account → α)
    (hfield : ∀ account balance, field { account with balance } = field account) (w : World)
    (source target : Address) (amount : U256) (b : Address) :
    field (((w.subBalance source amount).addBalance target amount).accountD b) =
      field (w.accountD b) :=
  (setAccount_frame field (hfield _ _) b).trans (setAccount_frame field (hfield _ _) b)

/-! ## The writes by name -/

/-- A write to one account. -/
inductive Write where
  | touch (a : Address)
  | setAccount (a : Address) (account : Account)
  | createAccount (a : Address)
  | addBalance (a : Address) (amount : U256)
  | subBalance (a : Address) (amount : U256)
  | setBalance (a : Address) (balance : U256)
  | setNonce (a : Address) (nonce : U64)
  | setCode (a : Address) (code : Bytes)
  | setStorage (a : Address) (key value : Hash)
  deriving DecidableEq

namespace Write

/-- Makes the write. -/
def perform (w : World) : Write → World
  | .touch a => w.touch a
  | .setAccount a account => w.setAccount a account
  | .createAccount a => w.createAccount a
  | .addBalance a amount => w.addBalance a amount
  | .subBalance a amount => w.subBalance a amount
  | .setBalance a balance => w.setBalance a balance
  | .setNonce a nonce => w.setNonce a nonce
  | .setCode a code => w.setCode a code
  | .setStorage a key value => w.setStorage a key value

/-- The address written to. -/
def address : Write → Address
  | .touch a | .setAccount a _ | .createAccount a | .addBalance a _ | .subBalance a _
  | .setBalance a _ | .setNonce a _ | .setCode a _ | .setStorage a _ _ => a

/-- What the account becomes, by what the address answered before. A new account keeps the balance
only, and a slot that a zero is written to is no longer there. -/
def result (old : Option Account) : Write → Account
  | .touch _ => old.getD {}
  | .setAccount _ account => account
  | .createAccount _ => { balance := (old.getD {}).balance }
  | .addBalance _ amount => { old.getD {} with balance := (old.getD {}).balance.satAdd amount }
  | .subBalance _ amount => { old.getD {} with balance := (old.getD {}).balance.satSub amount }
  | .setBalance _ balance => { old.getD {} with balance }
  | .setNonce _ nonce => { old.getD {} with nonce }
  | .setCode _ code => { old.getD {} with code }
  | .setStorage _ key value =>
    { old.getD {} with
      storage :=
        if value.isZero then (old.getD {}).storage.erase key
        else (old.getD {}).storage.insert key value }

/-- Every write replaces one account. -/
theorem perform_eq (w : World) (x : Write) :
    x.perform w = w.setAccount x.address (x.result (w.account? x.address)) := by
  cases x <;> rfl

end Write

/-- Makes writes one after the other. -/
def performAll (w : World) (writes : List Write) : World :=
  writes.foldl (fun w x => x.perform w) w

theorem performAll_append (w : World) (front back : List Write) :
    w.performAll (front ++ back) = (w.performAll front).performAll back := List.foldl_append

/-- Writes change the pending layer and nothing else. -/
theorem performAll_eq (w : World) (writes : List Write) :
    w.performAll writes = { w with pending := (w.performAll writes).pending } := by
  induction writes generalizing w with
  | nil => rfl
  | cons x rest ih =>
    show (x.perform w).performAll rest =
      { w with pending := ((x.perform w).performAll rest).pending }
    rw [ih, Write.perform_eq]
    rfl

/-- What becomes of an address is decided by the writes to it, in their order; the writes to other
addresses may come anywhere between them. -/
theorem pending_performAll {v w : World} {a : Address} (hfinalised : v.finalised = w.finalised)
    (hpending : v.pending.get? a = w.pending.get? a) (writes : List Write) :
    (v.performAll writes).pending.get? a =
      (w.performAll (writes.filter (·.address == a))).pending.get? a := by
  induction writes generalizing v w with
  | nil => exact hpending
  | cons x rest ih =>
    have hfinalised' : (x.perform v).finalised = w.finalised := by
      rw [Write.perform_eq]
      exact hfinalised
    by_cases hx : x.address = a
    · have haccount : v.account? a = w.account? a := by
        rw [account?, account?, hpending, hfinalised]
      rw [List.filter_cons, if_pos (beq_iff_eq.2 hx)]
      show ((x.perform v).performAll rest).pending.get? a =
        ((x.perform w).performAll _).pending.get? a
      apply ih
      · rw [hfinalised', Write.perform_eq]
        rfl
      · rw [Write.perform_eq, Write.perform_eq, hx, pending_setAccount_self,
          pending_setAccount_self, haccount]
    · rw [List.filter_cons, if_neg fun h => hx (beq_iff_eq.1 h)]
      show ((x.perform v).performAll rest).pending.get? a = _
      apply ih hfinalised'
      rw [Write.perform_eq, pending_setAccount_of_ne v _ (Ne.symm hx), hpending]

/-! ## Writes to some accounts -/

/-- Of the accounts, only those of a set were written to. -/
structure Within (S : Address → Prop) (w v : World) : Prop where
  finalised : v.finalised = w.finalised
  pending : ∀ a, ¬ S a → v.pending.get? a = w.pending.get? a

namespace Within

variable {S : Address → Prop} {u v w : World}

theorem refl (w : World) : Within S w w := ⟨rfl, fun _ _ => rfl⟩

theorem trans (h : Within S u v) (h' : Within S v w) : Within S u w :=
  ⟨h'.finalised.trans h.finalised, fun a ha => (h'.pending a ha).trans (h.pending a ha)⟩

theorem setAccount (h : Within S w v) {a : Address} (ha : S a) (account : Account) :
    Within S w (v.setAccount a account) := by
  refine ⟨h.finalised, ?_⟩
  intro b hb
  rw [pending_setAccount_of_ne v account fun hba => hb (by rw [hba]; exact ha), h.pending b hb]

theorem addRefund (h : Within S w v) (gas : U64) : Within S w (v.addRefund gas) :=
  ⟨h.finalised, h.pending⟩

theorem addLog (h : Within S w v) (l : Log) : Within S w (v.addLog l) := ⟨h.finalised, h.pending⟩

theorem account? (h : Within S w v) {a : Address} (ha : ¬ S a) : v.account? a = w.account? a := by
  rw [World.account?, World.account?, h.pending a ha, h.finalised]

end Within

/-! ## Going back -/

/-- The second world is the first with writes made to it. -/
structure Extends (w v : World) : Prop where
  finalised : v.finalised = w.finalised
  stamp : v.stamp = w.stamp
  logs : w.logs <+: v.logs

namespace Extends

theorem refl (w : World) : w.Extends w := ⟨rfl, rfl, List.prefix_refl _⟩

theorem trans {u v w : World} (h : u.Extends v) (h' : v.Extends w) : u.Extends w :=
  ⟨h'.finalised.trans h.finalised, h'.stamp.trans h.stamp, h.logs.trans h'.logs⟩

theorem setAccount {w v : World} (h : w.Extends v) (a : Address) (account : Account) :
    w.Extends (v.setAccount a account) := ⟨h.finalised, h.stamp, h.logs⟩

theorem addRefund {w v : World} (h : w.Extends v) (gas : U64) : w.Extends (v.addRefund gas) :=
  ⟨h.finalised, h.stamp, h.logs⟩

theorem addLog {w v : World} (h : w.Extends v) (l : Log) : w.Extends (v.addLog l) :=
  ⟨h.finalised, h.stamp, h.logs.trans (List.prefix_append _ _)⟩

end Extends

/-- A checkpoint undoes all writes made since. -/
theorem restore_checkpoint {w v : World} (h : w.Extends v) : v.restore w.checkpoint = w := by
  have hlogs : v.logs.take w.logs.length = w.logs := (List.prefix_iff_eq_take.1 h.logs).symm
  unfold restore checkpoint
  rw [hlogs, h.finalised, h.stamp]

/-- A finalised world has nothing left to finalise. -/
theorem finalise_finalise (w : World) (deleteEmpty deleteEmpty' : Bool) :
    (w.finalise deleteEmpty).finalise deleteEmpty' = w.finalise deleteEmpty := rfl

end World

end TwinLedger
