import TwinLedger.Chain.Signer
import TwinLedger.Proofs.Rlp

/-!
# What a signature covers

A signature is made over the hash of a payload: six fields of the transaction for a signature that
is good on any chain, or the six fields, a chain id and two zeros. Both are lists of items, and a
list is known by its encoding, so

> equal payloads cover the same six fields and the same chain id, and a payload of six items is none
> of nine (`Signer.signedAlike_of_payload`).

What is signed is the hash alone. So the domains are apart as far as the hash is: a signature that
covers two transactions, or one transaction in two domains, exhibits two payloads that collide
(`Signer.signingHash_separates`).
-/

namespace TwinLedger

/-- An absent address is not written like any that is present: it has no bytes, and those have
twenty. -/
theorem Rlp.ofAddress?_inj {a b : Option Address} :
    Item.ofAddress? a = Item.ofAddress? b ↔ a = b := by
  have habsent : ∀ x : Address, Item.ofAddress? (some x) ≠ Item.ofAddress? none := by
    intro x h
    have hbytes : x.toBytes = [] := Item.string.inj h
    have hlength := x.length_toBytes
    rw [hbytes] at hlength
    cases hlength
  constructor
  · intro h
    cases a with
    | none =>
      cases b with
      | none => rfl
      | some y => exact absurd h.symm (habsent y)
    | some x =>
      cases b with
      | none => exact absurd h (habsent x)
      | some y => exact congrArg some (ofFixed_inj.1 h)
  · intro h
    rw [h]

namespace Transaction

/-- Two transactions agree on the six fields that every signature covers. -/
structure SignedAlike (s t : Transaction) : Prop where
  nonce : s.nonce = t.nonce
  gasPrice : s.gasPrice = t.gasPrice
  gasLimit : s.gasLimit = t.gasLimit
  recipient : s.recipient = t.recipient
  value : s.value = t.value
  input : s.input = t.input

variable {s t : Transaction}

theorem signedItems_inj : s.signedItems = t.signedItems ↔ s.SignedAlike t := by
  simp only [signedItems, List.cons.injEq, Rlp.ofWord_inj, Rlp.ofAddress?_inj,
    Rlp.Item.string.injEq, and_true]
  constructor
  · rintro ⟨hnonce, hprice, hlimit, hrecipient, hvalue, hinput⟩
    exact ⟨hnonce, hprice, hlimit, hrecipient, hvalue, hinput⟩
  · rintro ⟨hnonce, hprice, hlimit, hrecipient, hvalue, hinput⟩
    exact ⟨hnonce, hprice, hlimit, hrecipient, hvalue, hinput⟩

theorem SignedAlike.symm (h : s.SignedAlike t) : t.SignedAlike s :=
  signedItems_inj.1 (signedItems_inj.2 h).symm

theorem length_signedItems (tx : Transaction) : tx.signedItems.length = 6 := rfl

/-! ## The two payloads -/

theorem signedAlike_of_unprotectedPayload (hshort : s.unprotectedPayload.length < Word.range 64)
    (h : s.unprotectedPayload = t.unprotectedPayload) : s.SignedAlike t :=
  signedItems_inj.1 (Rlp.encodeList_inj hshort h)

theorem signedAlike_of_protectedPayload {c d : U64}
    (hshort : (s.protectedPayload c).length < Word.range 64)
    (h : s.protectedPayload c = t.protectedPayload d) : s.SignedAlike t ∧ c = d := by
  have hlength : s.signedItems.length = t.signedItems.length := by
    rw [length_signedItems, length_signedItems]
  obtain ⟨hsigned, hdomain⟩ := List.append_inj (Rlp.encodeList_inj hshort h) hlength
  exact ⟨signedItems_inj.1 hsigned, Rlp.ofWord_inj.1 (List.cons.inj hdomain).1⟩

/-- Six items are not nine, whatever the input holds. -/
theorem unprotectedPayload_ne_protectedPayload {c : U64}
    (hshort : s.unprotectedPayload.length < Word.range 64) :
    s.unprotectedPayload ≠ t.protectedPayload c := by
  intro h
  have hlength := congrArg List.length (Rlp.encodeList_inj hshort h)
  rw [List.length_append, length_signedItems, length_signedItems] at hlength
  cases hlength

end Transaction

/-! ## The signers -/

namespace Signer

/-- The payloads that a signer lets a signature cover. -/
theorem payload_eq_ok_iff {s : Signer} {tx : Transaction} {p : Bytes} :
    s.payload tx = .ok p ↔
      tx.chainId = none ∧ tx.unprotectedPayload = p ∨
        ∃ c, tx.chainId = some c ∧ s = .eip155 c ∧ tx.protectedPayload c = p := by
  unfold payload
  cases hchain : tx.chainId with
  | none =>
    constructor
    · intro h
      exact Or.inl ⟨rfl, Except.ok.inj h⟩
    · rintro (⟨-, rfl⟩ | ⟨c, hc, -⟩)
      · rfl
      · cases hc
  | some got =>
    cases s with
    | frontier =>
      constructor
      · intro h
        cases h
      · rintro (⟨hnone, -⟩ | ⟨c, -, hs, -⟩)
        · cases hnone
        · cases hs
    | eip155 expected =>
      by_cases heq : expected = got
      · dsimp only
        rw [if_pos heq]
        constructor
        · intro h
          exact Or.inr ⟨got, rfl, congrArg eip155 heq, Except.ok.inj h⟩
        · rintro (⟨hnone, -⟩ | ⟨c, hc, -, rfl⟩)
          · cases hnone
          · rw [Option.some.inj hc]
      · dsimp only
        rw [if_neg heq]
        constructor
        · intro h
          cases h
        · rintro (⟨hnone, -⟩ | ⟨c, hc, hs, -⟩)
          · cases hnone
          · exact absurd ((eip155.inj hs).trans (Option.some.inj hc).symm) heq

/-- One payload is that of one transaction, as far as signatures go, in one domain. -/
theorem signedAlike_of_payload {s s' : Signer} {tx tx' : Transaction} {p : Bytes}
    (hshort : p.length < Word.range 64) (h : s.payload tx = .ok p) (h' : s'.payload tx' = .ok p) :
    tx.SignedAlike tx' ∧ tx.chainId = tx'.chainId := by
  rcases payload_eq_ok_iff.1 h with ⟨hchain, hp⟩ | ⟨c, hchain, -, hp⟩
  · rw [← hp] at hshort
    rcases payload_eq_ok_iff.1 h' with ⟨hchain', hp'⟩ | ⟨c', -, -, hp'⟩
    · rw [hchain, hchain']
      exact ⟨Transaction.signedAlike_of_unprotectedPayload hshort (hp.trans hp'.symm), rfl⟩
    · -- Six items here and nine there; the reverse comes below.
      exact absurd (hp.trans hp'.symm) (Transaction.unprotectedPayload_ne_protectedPayload hshort)
  · rcases payload_eq_ok_iff.1 h' with ⟨-, hp'⟩ | ⟨c', hchain', -, hp'⟩
    · rw [← hp'] at hshort
      exact absurd (hp'.trans hp.symm) (Transaction.unprotectedPayload_ne_protectedPayload hshort)
    · rw [← hp] at hshort
      obtain ⟨halike, hc⟩ := Transaction.signedAlike_of_protectedPayload hshort (hp.trans hp'.symm)
      rw [hchain, hchain', hc]
      exact ⟨halike, rfl⟩

theorem exists_payload_of_signingHash {s : Signer} {tx : Transaction} {hash : Hash}
    (h : s.signingHash tx = .ok hash) : ∃ p, s.payload tx = .ok p ∧ keccak256 p = hash := by
  unfold signingHash at h
  cases hp : s.payload tx with
  | error e =>
    rw [hp] at h
    cases h
  | ok p =>
    rw [hp] at h
    exact ⟨p, rfl, Except.ok.inj h⟩

/-- Payloads without a chain id determine the six fields, payloads with one determine the six fields
and the chain id, and no payload is of both kinds. So where two transactions have one hash to sign,
with whatever signers, they agree on the six fields and on the chain id, or the hash does not tell
two payloads apart. -/
theorem signingHash_separates :
    (∀ t₁ t₂ : Transaction, t₁.unprotectedPayload.length < Word.range 64 →
      t₁.unprotectedPayload = t₂.unprotectedPayload → t₁.SignedAlike t₂) ∧
    (∀ (t₁ t₂ : Transaction) (c₁ c₂ : U64), (t₁.protectedPayload c₁).length < Word.range 64 →
      t₁.protectedPayload c₁ = t₂.protectedPayload c₂ → t₁.SignedAlike t₂ ∧ c₁ = c₂) ∧
    (∀ (t₁ t₂ : Transaction) (c : U64), t₁.unprotectedPayload.length < Word.range 64 →
      t₁.unprotectedPayload ≠ t₂.protectedPayload c) ∧
    ∀ (s₁ s₂ : Signer) (t₁ t₂ : Transaction) (hash : Hash),
      (∀ p, s₁.payload t₁ = .ok p → p.length < Word.range 64) →
      s₁.signingHash t₁ = .ok hash → s₂.signingHash t₂ = .ok hash →
      (t₁.SignedAlike t₂ ∧ t₁.chainId = t₂.chainId) ∨
        ∃ p₁ p₂, s₁.payload t₁ = .ok p₁ ∧ s₂.payload t₂ = .ok p₂ ∧ Collide keccak256 p₁ p₂ := by
  refine ⟨?_, ?_, ?_, ?_⟩
  · intro t₁ t₂ hshort h
    exact Transaction.signedAlike_of_unprotectedPayload hshort h
  · intro t₁ t₂ c₁ c₂ hshort h
    exact Transaction.signedAlike_of_protectedPayload hshort h
  · intro t₁ t₂ c hshort
    exact Transaction.unprotectedPayload_ne_protectedPayload hshort
  · intro s₁ s₂ t₁ t₂ hash hshort h₁ h₂
    obtain ⟨p₁, hp₁, hhash₁⟩ := exists_payload_of_signingHash h₁
    obtain ⟨p₂, hp₂, hhash₂⟩ := exists_payload_of_signingHash h₂
    rcases eq_or_collide (hhash₁.trans hhash₂.symm) with heq | hcollide
    · exact Or.inl (signedAlike_of_payload (hshort p₁ hp₁) hp₁ (heq ▸ hp₂))
    · exact Or.inr ⟨p₁, p₂, hp₁, hp₂, hcollide⟩

/-- A transaction for chain 5, before it is signed. -/
def unsignedTransaction : Transaction where
  nonce := 3
  gasPrice := 20
  gasLimit := 21000
  value := 7
  input := [0x2a]
  chainId := some 5

/-- The same transaction with some key and some signature, which no signature covers. -/
def resignedTransaction : Transaction :=
  { unsignedTransaction with publicKey := 8, signature := 9 }

theorem signingHash_separates_resigned :
    unsignedTransaction ≠ resignedTransaction ∧
      unsignedTransaction.SignedAlike resignedTransaction ∧
      (unsignedTransaction.SignedAlike resignedTransaction ∧ (5 : U64) = 5) ∧
      unsignedTransaction.unprotectedPayload ≠ resignedTransaction.protectedPayload 5 ∧
      (∃ hash, (eip155 5).signingHash unsignedTransaction = .ok hash ∧
        (eip155 5).signingHash resignedTransaction = .ok hash) ∧
      ((unsignedTransaction.SignedAlike resignedTransaction ∧
          unsignedTransaction.chainId = resignedTransaction.chainId) ∨
        ∃ p₁ p₂, (eip155 5).payload unsignedTransaction = .ok p₁ ∧
          (eip155 5).payload resignedTransaction = .ok p₂ ∧ Collide keccak256 p₁ p₂) := by
  have hshort : unsignedTransaction.unprotectedPayload.length < Word.range 64 := by
    decide +kernel
  have hshort' : (unsignedTransaction.protectedPayload 5).length < Word.range 64 := by
    decide +kernel
  have hpayload : (eip155 5).payload unsignedTransaction =
      .ok (unsignedTransaction.protectedPayload 5) :=
    payload_eq_ok_iff.2 (Or.inr ⟨5, rfl, rfl, rfl⟩)
  have hpayload' : (eip155 5).payload resignedTransaction =
      .ok (unsignedTransaction.protectedPayload 5) :=
    payload_eq_ok_iff.2 (Or.inr ⟨5, rfl, rfl, rfl⟩)
  have hhash : (eip155 5).signingHash unsignedTransaction =
      .ok (keccak256 (unsignedTransaction.protectedPayload 5)) := by
    rw [signingHash, hpayload]
    rfl
  have hhash' : (eip155 5).signingHash resignedTransaction =
      .ok (keccak256 (unsignedTransaction.protectedPayload 5)) := by
    rw [signingHash, hpayload']
    rfl
  obtain ⟨hunprotected, hprotected, hapart, hsign⟩ := signingHash_separates
  refine ⟨by decide, ?_, ?_, ?_, ⟨_, hhash, hhash'⟩, ?_⟩
  · exact hunprotected _ _ hshort rfl
  · exact hprotected _ _ 5 5 hshort' rfl
  · exact hapart _ _ 5 hshort
  · refine hsign (eip155 5) (eip155 5) _ _ _ ?_ hhash hhash'
    intro p hp
    rw [← Except.ok.inj (hpayload.symm.trans hp)]
    exact hshort'

end Signer

end TwinLedger
