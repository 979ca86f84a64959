import TwinLedger.Gas.Schedule
import TwinLedger.Proofs.Chain.Signing

/-!
# What the name of a transaction covers

A transaction is named by the hash of one list with all its fields. The list is known by its
encoding, as long as that is shorter than two to the power of 64, and it gives back every field but
one. An absent chain id is written like chain 0, so

> two encodings are equal where the transactions are, and where one of them is for chain 0 and the
> other is the same for no chain (`Transaction.encoding_eq_iff`).

All fields but the input are short, and an input that gas can be paid for is not long either
(`Gas.input_lt_of_intrinsic?`). So, unless the hash fails, two transactions with one name that are
paid for have one nonce and one key, and a key is the only thing that a sender is made from
(`Signer.eq_ofKey_of_sender`).
-/

namespace TwinLedger

/-- An input that has an intrinsic price is short, for each of its bytes has a price. -/
theorem Gas.input_lt_of_intrinsic? {input : Bytes} {creates homestead : Bool} {gas : U64}
    (h : Gas.intrinsic? input creates homestead = some gas) :
    4 * input.length < Word.range 64 := by
  have hsum := Word.ofNat?_eq_some_iff.1 h
  have hzeros : input.count 0 ≤ input.length := List.count_le_length
  have hlt := gas.isLt
  unfold nonZeroByte zeroByte at hsum
  omega

theorem Rlp.size_ofAddress?_le (a : Option Address) : (Item.ofAddress? a).size ≤ 21 := by
  cases a with
  | none => decide
  | some a => exact size_ofFixed_le a (by decide)

namespace Transaction

/-- All that the name of a transaction is made from. -/
def items (tx : Transaction) : List Rlp.Item :=
  tx.signedItems ++ [.ofWord (tx.chainId.getD 0), .ofFixed tx.publicKey, .ofFixed tx.signature]

theorem encoding_eq (tx : Transaction) : tx.encoding = Rlp.encodeList tx.items := rfl

/-- The encoding of a transaction is short where its input is. -/
theorem length_encoding_lt {tx : Transaction} (h : 4 * tx.input.length < Word.range 64) :
    tx.encoding.length < Word.range 64 := by
  have hword : ∀ w : U64, (Rlp.Item.ofWord w).size ≤ 9 :=
    fun w => Rlp.size_ofNat_le 8 w.isLt (by decide)
  have hlong : ∀ w : U256, (Rlp.Item.ofWord w).size ≤ 33 :=
    fun w => Rlp.size_ofNat_le 32 w.isLt (by decide)
  have hrecipient := Rlp.size_ofAddress?_le tx.recipient
  have hinput : (Rlp.Item.string tx.input).size ≤ tx.input.length + 9 :=
    Rlp.size_string_le_add (by omega)
  have hkey : (Rlp.Item.ofFixed tx.publicKey).size ≤ 33 := Rlp.size_ofFixed_le _ (by decide)
  have hsignature : (Rlp.Item.ofFixed tx.signature).size ≤ 64 + 9 := by
    have hlength : tx.signature.toBytes.length = 64 := tx.signature.length_toBytes
    have hshort : tx.signature.toBytes.length < Word.range 64 := by
      rw [hlength]
      decide
    exact Nat.le_trans (Rlp.size_string_le_add hshort) (Nat.le_of_eq (by rw [hlength]))
  have hnonce := hword tx.nonce
  have hlimit := hword tx.gasLimit
  have hchain := hword (tx.chainId.getD 0)
  have hprice := hlong tx.gasPrice
  have hvalue := hlong tx.value
  have hsizes : Rlp.sizes tx.items ≤ tx.input.length + 229 := by
    simp only [items, signedItems, List.cons_append, List.nil_append, Rlp.sizes]
    omega
  have hroom : 4 * 238 < Word.range 64 := by decide
  have hlist : (Rlp.Item.list tx.items).size ≤ Rlp.sizes tx.items + 9 :=
    Rlp.size_list_le (by omega)
  have hlength : tx.encoding.length = (Rlp.Item.list tx.items).size := Rlp.length_encode _
  omega

variable {s t : Transaction}

/-- Transactions with one encoding have the same items. -/
theorem items_eq_of_encoding_eq (hshort : s.encoding.length < Word.range 64)
    (h : s.encoding = t.encoding) : s.items = t.items :=
  Rlp.encodeList_inj hshort h

/-- The items give back what a signature covers, the key and the signature. Of the chain id they
give back what it counts as. -/
theorem items_inj : s.items = t.items ↔
    s.SignedAlike t ∧ s.chainId.getD 0 = t.chainId.getD 0 ∧ s.publicKey = t.publicKey ∧
      s.signature = t.signature := by
  have hlength : s.signedItems.length = t.signedItems.length := by
    rw [length_signedItems, length_signedItems]
  constructor
  · intro h
    obtain ⟨hsigned, hrest⟩ := List.append_inj h hlength
    simp only [List.cons.injEq, Rlp.ofWord_inj, Rlp.ofFixed_inj, and_true] at hrest
    exact ⟨signedItems_inj.1 hsigned, hrest⟩
  · rintro ⟨halike, hchain, hkey, hsignature⟩
    rw [items, items, signedItems_inj.2 halike, hchain, hkey, hsignature]

/-! ## The chain id -/

/-- Transactions that agree on the other eight fields are one but for the chain id. -/
theorem SignedAlike.eq_with (h : s.SignedAlike t) (hkey : s.publicKey = t.publicKey)
    (hsignature : s.signature = t.signature) : s = { t with chainId := s.chainId } := by
  cases s
  cases t
  obtain ⟨rfl, rfl, rfl, rfl, rfl, rfl⟩ := h
  cases hkey
  cases hsignature
  rfl

/-- Chain ids that count as one are one, or one is zero and the other is absent. -/
theorem chainId_cases {a b : Option U64} (h : a.getD 0 = b.getD 0) :
    a = b ∨ (a = none ∧ b = some 0) ∨ (b = none ∧ a = some 0) := by
  cases a with
  | none =>
    cases b with
    | none => exact Or.inl rfl
    | some d => exact Or.inr (Or.inl ⟨rfl, congrArg some h.symm⟩)
  | some c =>
    cases b with
    | none => exact Or.inr (Or.inr ⟨rfl, congrArg some h⟩)
    | some d => exact Or.inl (congrArg some h)

/-- The second transaction is for chain 0, and the first is the same for no chain. -/
def UnboundOf (s t : Transaction) : Prop := t.chainId = some 0 ∧ s = { t with chainId := none }

theorem UnboundOf.items_eq (h : s.UnboundOf t) : s.items = t.items := by
  obtain ⟨hchain, rfl⟩ := h
  rw [items, items, hchain]
  rfl

/-- An encoding gives back the whole transaction, but for one thing: whether it is for chain 0 or
for no chain. -/
theorem encoding_eq_iff (s t : Transaction) (hshort : s.encoding.length < Word.range 64) :
    s.encoding = t.encoding ↔ s = t ∨ s.UnboundOf t ∨ t.UnboundOf s := by
  constructor
  · intro h
    obtain ⟨halike, hchain, hkey, hsignature⟩ := items_inj.1 (items_eq_of_encoding_eq hshort h)
    have hs := halike.eq_with hkey hsignature
    have ht := halike.symm.eq_with hkey.symm hsignature.symm
    -- What the chain ids count as is all that is left to compare.
    rcases chainId_cases hchain with hsame | ⟨hnone, hzero⟩ | ⟨hnone, hzero⟩
    · rw [hsame] at hs
      exact Or.inl hs
    · rw [hnone] at hs
      exact Or.inr (Or.inl ⟨hzero, hs⟩)
    · rw [hnone] at ht
      exact Or.inr (Or.inr ⟨hzero, ht⟩)
  · rintro (rfl | h | h)
    · rfl
    · rw [encoding_eq, encoding_eq, h.items_eq]
    · rw [encoding_eq, encoding_eq, h.items_eq]

/-- A call with some key and some signature. -/
def signedCall : Transaction where
  nonce := 9
  gasLimit := 21000
  recipient := some (.replicate 2)
  publicKey := .ofBytes (1 :: List.replicate 31 0)
  signature := .ofBytes (1 :: List.replicate 63 0)

/-- Another signature is another encoding. -/
theorem encoding_eq_iff_resigned :
    signedCall.encoding.length < Word.range 64 ∧
      signedCall.encoding ≠ { signedCall with signature := 0 }.encoding := by
  have hshort : signedCall.encoding.length < Word.range 64 := by
    decide +kernel
  refine ⟨hshort, ?_⟩
  rw [Ne, encoding_eq_iff signedCall { signedCall with signature := 0 } hshort]
  rintro (h | ⟨h, -⟩ | ⟨h, -⟩)
  · revert h
    decide +kernel
  · cases h
  · cases h

/-- A call for chain 0 and the same call for no chain are two transactions of one encoding. -/
theorem encoding_signedCall_unbound :
    { signedCall with chainId := some 0 } ≠ signedCall ∧
      signedCall.encoding.length < Word.range 64 ∧
      { signedCall with chainId := some 0 }.encoding = signedCall.encoding := by
  refine ⟨?_, ?_, rfl⟩
  · intro h
    have hchain := congrArg chainId h
    cases hchain
  · decide +kernel

end Transaction

/-! ## The sender -/

/-- The sender is the account of the key. -/
theorem Signer.eq_ofKey_of_sender {s : Signer} {tx : Transaction} {a : Address}
    (h : s.sender tx = .ok a) : a = Address.ofKey tx.publicKey := by
  unfold sender at h
  -- Taken apart by its lemma, since unfolding the step behind it would evaluate the curve.
  obtain ⟨hash, -, hkey⟩ := exists_of_bind h
  split at hkey
  · cases hkey
  · split at hkey
    · exact (Except.ok.inj hkey).symm
    · cases hkey

end TwinLedger
