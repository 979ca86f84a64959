import TwinLedger.Proofs.Execution.Settlement

/-!
# Nonces and code that are there

A message raises the nonce of its sender, and two things it does could take a nonce or code away
again: a creation starts its contract with a fresh account, and the program of an account writes to
it. Neither does, because a creation is refused at an address with a nonce or code, and because a
program writes slots and nothing else.

> `Keeps`: nonces that are not zero and code that is not empty are as they were.

Everything that a message does after it was counted keeps the accounts in this sense
(`Enacted.keeps`), of its own sender and of all others.
-/

namespace TwinLedger

/-- What is not to be lost of an account. -/
def Account.identity (account : Account) : U64 × Bytes := (account.nonce, account.code)

namespace World

/-- Nonces and code that are there stay as they are. -/
structure Keeps (w v : World) : Prop where
  nonce : ∀ a, w.nonce a ≠ 0 → v.nonce a = w.nonce a
  code : ∀ a, w.code a ≠ [] → v.code a = w.code a

/-- Nonces do not fall, and code that is there stays as it is. -/
structure Grows (w v : World) : Prop where
  nonce_le : ∀ a, w.nonce a ≤ v.nonce a
  code : ∀ a, w.code a ≠ [] → v.code a = w.code a

namespace Keeps

variable {w v : World}

theorem of_identity (h : ∀ a, (v.accountD a).identity = (w.accountD a).identity) : w.Keeps v :=
  ⟨fun a _ => congrArg Prod.fst (h a), fun a _ => congrArg Prod.snd (h a)⟩

theorem prepare (w : World) (stamp : Stamp) : w.Keeps (w.prepare stamp) :=
  of_identity fun _ => rfl

/-- Where there is neither nonce nor code, there is nothing to keep. -/
theorem of_identity_of_ne {b : Address} (hnonce : w.nonce b = 0) (hcode : w.code b = [])
    (h : ∀ a, a ≠ b → (v.accountD a).identity = (w.accountD a).identity) : w.Keeps v := by
  refine ⟨?_, ?_⟩
  · intro a ha
    exact congrArg Prod.fst (h a fun hab => ha (by rw [hab, hnonce]))
  · intro a ha
    exact congrArg Prod.snd (h a fun hab => ha (by rw [hab, hcode]))

end Keeps

namespace Grows

variable {u v w : World}

theorem refl (w : World) : w.Grows w := ⟨fun _ => Nat.le_refl _, fun _ _ => rfl⟩

theorem trans (h : u.Grows v) (h' : v.Grows w) : u.Grows w := by
  refine ⟨fun a => Nat.le_trans (h.nonce_le a) (h'.nonce_le a), ?_⟩
  intro a ha
  have hkept := h.code a ha
  rw [h'.code a (by rw [hkept]; exact ha), hkept]

end Grows

theorem Keeps.grows {w v : World} (h : w.Keeps v) : w.Grows v := by
  refine ⟨?_, h.code⟩
  intro a
  by_cases hnonce : w.nonce a = 0
  · rw [hnonce]
    exact Nat.zero_le _
  · rw [h.nonce a hnonce]
    exact Nat.le_refl _

end World

/-! ## What a message keeps -/

namespace Admission

variable {a : Admission} {m : Message} {w : World}

/-- The nonce of the sender is raised, for it is not the last one. -/
theorem nonce_world_self (hmax : w.nonce m.sender ≠ .max) :
    ((a.world m w).nonce m.sender).toNat = (w.nonce m.sender).toNat + 1 := by
  have hlt := Word.toNat_lt_max hmax
  have hcount : (a.world m w).nonce m.sender = (w.nonce m.sender).satAdd 1 :=
    congrArg Account.nonce accountD_world_self
  rw [hcount, Word.toNat_satAdd]
  exact if_pos hlt

theorem nonce_world_of_ne {b : Address} (hb : b ≠ m.sender) : (a.world m w).nonce b = w.nonce b :=
  congrArg Account.nonce (accountD_world_of_ne hb)

theorem grows_world (hmax : w.nonce m.sender ≠ .max) : w.Grows (a.world m w) := by
  refine ⟨?_, fun b _ => world_frame Account.code (fun _ _ _ => rfl) b⟩
  intro b
  by_cases hb : b = m.sender
  · have hraised := nonce_world_self (a := a) hmax
    rw [hb]
    exact Word.le_iff.2 (by omega)
  · rw [nonce_world_of_ne hb]
    exact Nat.le_refl _

end Admission

/-- No call or creation takes nonce or code from an account. -/
theorem Enacted.keeps {ctx : BlockContext} {m : Message} {nonce : U64} {w v : World}
    (h : Enacted ctx m nonce w v) : w.Keeps v := by
  cases h with
  | nothing => exact .of_identity fun a => rfl
  | called hrecipient hprogram =>
    apply World.Keeps.of_identity
    intro a
    rw [hprogram.frame Account.identity fun _ _ _ => rfl]
    exact InPlace.callWorld_frame Account.identity (fun _ _ => rfl) m _ w a
  | created hrecipient hnonce hcode hdeposit =>
    apply World.Keeps.of_identity_of_ne hnonce hcode
    intro a ha
    rcases hdeposit with rfl | rfl
    · exact InPlace.creationWorld_frame Account.identity (fun _ _ => rfl) ctx m w ha
    · rw [World.setCode, World.accountD_modify_of_ne _ _ ha]
      exact InPlace.creationWorld_frame Account.identity (fun _ _ => rfl) ctx m w ha

end TwinLedger
