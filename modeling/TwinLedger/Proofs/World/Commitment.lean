import TwinLedger.Proofs.Rlp
import TwinLedger.Proofs.World.Writes

/-!
# What the root says

The root is the hash of the accounts, each encoded with the hash of its code and the hash of its
storage in the place of these (its *digest*). There is no count of accounts in it and no header
around them, and still nothing is lost, because each encoding tells where it ends and the accounts
stand in the order of their addresses:

> one encoding, one map from addresses to digests, whatever function hashes code and storage.

The hash is a parameter throughout, so that nothing is assumed of it. Where two different states
have one root, the places are named on which the hash fails to tell them apart (`Confused`); the
other way round, the root depends on nothing but what the state answers (`root_eq_of_readAlike`).
-/

namespace TwinLedger

open Ranked (rank)

theorem SortedMap.lookup_map {κ ν μ : Type} [Ranked κ] (f : ν → μ) (k : κ) (es : List (κ × ν)) :
    lookup k (es.map fun e => (e.1, f e.2)) = (lookup k es).map f := by
  induction es with
  | nil => rfl
  | cons e rest ih =>
    rw [List.map_cons, lookup, lookup, ih]
    split <;> rfl

/-! ## Storage -/

/-- The items of one slot. -/
def slotItems (entry : Hash × Hash) : List Rlp.Item := [.ofFixed entry.1, .ofFixed entry.2]

theorem size_slotItems (entry : Hash × Hash) :
    (Rlp.Item.list (slotItems entry)).size < Word.range 64 := by
  have hkey := Rlp.size_ofFixed_le entry.1 (by decide)
  have hvalue := Rlp.size_ofFixed_le entry.2 (by decide)
  have hsizes : Rlp.sizes (slotItems entry) ≤ 66 := by
    simp only [slotItems, Rlp.sizes]
    omega
  have hsmall : 66 + 9 < Word.range 64 := by decide
  have := Rlp.size_list_le (Nat.lt_of_le_of_lt hsizes (by decide))
  omega

theorem slotItems_inj {e f : Hash × Hash} (h : slotItems e = slotItems f) : e = f := by
  simp only [slotItems, List.cons.injEq, Rlp.ofFixed_inj, and_true] at h
  exact Prod.ext h.1 h.2

/-- Storages with one encoding are one storage. -/
theorem storageEncoding_inj {s t : SortedMap Hash Hash}
    (h : Account.storageEncoding s = Account.storageEncoding t) : s = t := by
  have hitems : s.entries.map slotItems = t.entries.map slotItems := by
    refine Rlp.flatMap_encodeList_inj (List.forall_mem_map.2 fun e _ => size_slotItems e)
      (List.forall_mem_map.2 fun e _ => size_slotItems e) ?_
    rw [List.flatMap_map, List.flatMap_map]
    exact h
  exact SortedMap.ext_entries ((List.map_inj_right fun _ _ => slotItems_inj).1 hitems)

/-! ## Accounts -/

/-- What the root keeps of an account. -/
@[ext] structure Digest where
  nonce : U64
  balance : U256
  codeHash : Hash
  storageRoot : Hash
  deriving DecidableEq

/-- The digest of an account under a hash function. -/
def Account.digest (hash : Bytes → Hash) (account : Account) : Digest where
  nonce := account.nonce
  balance := account.balance
  codeHash := hash account.code
  storageRoot := hash (storageEncoding account.storage)

/-- The items of one account. -/
def Digest.items (entry : Address × Digest) : List Rlp.Item :=
  [.ofFixed entry.1, .ofWord entry.2.nonce, .ofWord entry.2.balance, .ofFixed entry.2.codeHash,
    .ofFixed entry.2.storageRoot]

theorem Digest.size_items (entry : Address × Digest) :
    (Rlp.Item.list (items entry)).size < Word.range 64 := by
  have haddress := Rlp.size_ofFixed_le entry.1 (by decide)
  have hnonce := Rlp.size_ofNat_le 8 entry.2.nonce.isLt (by decide)
  have hbalance := Rlp.size_ofNat_le 32 entry.2.balance.isLt (by decide)
  have hcode := Rlp.size_ofFixed_le entry.2.codeHash (by decide)
  have hstorage := Rlp.size_ofFixed_le entry.2.storageRoot (by decide)
  have hsizes : Rlp.sizes (items entry) ≤ 129 := by
    simp only [items, Rlp.Item.ofWord, Rlp.sizes]
    omega
  have hsmall : 129 + 9 < Word.range 64 := by decide
  have := Rlp.size_list_le (Nat.lt_of_le_of_lt hsizes (by decide))
  omega

theorem Digest.items_inj {e f : Address × Digest} (h : items e = items f) : e = f := by
  simp only [items, List.cons.injEq, Rlp.ofFixed_inj, Rlp.ofWord_inj, and_true] at h
  obtain ⟨haddress, hnonce, hbalance, hcode, hstorage⟩ := h
  exact Prod.ext haddress (Digest.ext hnonce hbalance hcode hstorage)

/-- Accounts with one digest are one account, or the hash fails on their code or their storage. -/
theorem Account.eq_or_collide_of_digest_eq {hash : Bytes → Hash} {x y : Account}
    (h : x.digest hash = y.digest hash) :
    x = y ∨ Collide hash x.code y.code ∨
      Collide hash (storageEncoding x.storage) (storageEncoding y.storage) := by
  obtain ⟨hnonce, hbalance, hcode, hstorage⟩ := Digest.ext_iff.1 h
  rcases eq_or_collide hcode with hcode | hcode
  · rcases eq_or_collide hstorage with hstorage | hstorage
    · left
      cases x
      cases y
      cases hnonce
      cases hbalance
      cases hcode
      cases storageEncoding_inj hstorage
      rfl
    · exact Or.inr (Or.inr hstorage)
  · exact Or.inr (Or.inl hcode)

namespace World

/-- What the root is the hash of, for any function in the place of the hash. -/
def encodingBy (hash : Bytes → Hash) (accounts : SortedMap Address Account) : Bytes :=
  accounts.entries.flatMap fun e => Rlp.encodeList (Digest.items (e.1, e.2.digest hash))

theorem encodingBy_keccak256 : encodingBy keccak256 = encoding := rfl

variable {hash : Bytes → Hash} {m n : SortedMap Address Account}

/-- Maps with one encoding have the same addresses with the same digests. -/
theorem digest_eq_of_encodingBy_eq (h : encodingBy hash m = encodingBy hash n) (a : Address) :
    (m.get? a).map (Account.digest hash) = (n.get? a).map (Account.digest hash) := by
  have hitems : m.entries.map (fun e => Digest.items (e.1, e.2.digest hash)) =
      n.entries.map fun e => Digest.items (e.1, e.2.digest hash) := by
    refine Rlp.flatMap_encodeList_inj (List.forall_mem_map.2 fun e _ => Digest.size_items _)
      (List.forall_mem_map.2 fun e _ => Digest.size_items _) ?_
    rw [List.flatMap_map, List.flatMap_map]
    exact h
  have hdigests : m.entries.map (fun e => (e.1, e.2.digest hash)) =
      n.entries.map fun e => (e.1, e.2.digest hash) := by
    refine (List.map_inj_right fun _ _ => Digest.items_inj).1 ?_
    rw [List.map_map, List.map_map]
    exact hitems
  rw [SortedMap.get?, SortedMap.get?, ← SortedMap.lookup_map, ← SortedMap.lookup_map, hdigests]

/-- Where a hash function fails two maps of accounts: on what their roots are the hashes of, or on
the two codes or the two storages of one address. -/
inductive Confused (hash : Bytes → Hash) (m n : SortedMap Address Account) : Prop where
  | encoding (h : Collide hash (encodingBy hash m) (encodingBy hash n))
  | code (a : Address) (x y : Account) (hx : m.get? a = some x) (hy : n.get? a = some y)
      (h : Collide hash x.code y.code)
  | storage (a : Address) (x y : Account) (hx : m.get? a = some x) (hy : n.get? a = some y)
      (h : Collide hash (Account.storageEncoding x.storage) (Account.storageEncoding y.storage))

/-- Maps with one root are one map, or the hash fails on them. -/
theorem eq_or_confused (h : hash (encodingBy hash m) = hash (encodingBy hash n)) :
    m = n ∨ Confused hash m n := by
  rcases eq_or_collide h with hencoding | hcollide
  · by_cases hconfused : Confused hash m n
    · exact Or.inr hconfused
    · refine Or.inl (SortedMap.ext_get? fun a => ?_)
      have hdigest := digest_eq_of_encodingBy_eq hencoding a
      cases hx : m.get? a with
      | none =>
        rw [hx, Option.map_none, eq_comm, Option.map_eq_none_iff] at hdigest
        exact hdigest.symm
      | some x =>
        rw [hx, Option.map_some, eq_comm, Option.map_eq_some_iff] at hdigest
        obtain ⟨y, hy, hdigest⟩ := hdigest
        rcases Account.eq_or_collide_of_digest_eq hdigest.symm with heq | hcode | hstorage
        · rw [hy, heq]
        · exact absurd (.code a x y hx hy hcode) hconfused
        · exact absurd (.storage a x y hx hy hstorage) hconfused
  · exact Or.inr (.encoding hcollide)

/-! ## States that answer alike -/

/-- No slot of a finalised account holds a zero. -/
def NoZeroSlot (w : World) : Prop :=
  ∀ a account, w.finalised.get? a = some account →
    ∀ key value, account.storage.get? key = some value → value.isZero = false

instance (w : World) : Decidable w.NoZeroSlot :=
  decidable_of_iff
    (∀ e ∈ w.finalised.entries, ∀ slot ∈ e.2.storage.entries, slot.2.isZero = false)
    ⟨fun h => SortedMap.forall_get?_iff.2 fun e he => SortedMap.forall_get?_iff.2 (h e he),
      fun h e he => SortedMap.forall_get?_iff.1 (SortedMap.forall_get?_iff.1 h e he)⟩

/-- Two worlds give every read the same answer. -/
structure ReadAlike (v w : World) : Prop where
  exists? : ∀ a, v.exists? a = w.exists? a
  nonce : ∀ a, v.nonce a = w.nonce a
  balance : ∀ a, v.balance a = w.balance a
  code : ∀ a, v.code a = w.code a
  storage : ∀ a key, v.storage a key = w.storage a key

end World

/-- Storages without zeros that read alike are one storage. -/
theorem Account.storage_eq_of_slot_eq {x y : Account}
    (hx : ∀ key value, x.storage.get? key = some value → value.isZero = false)
    (hy : ∀ key value, y.storage.get? key = some value → value.isZero = false)
    (h : ∀ key, x.slot key = y.slot key) : x.storage = y.storage := by
  refine SortedMap.ext_get? fun key => ?_
  have hslot := h key
  unfold slot at hslot
  cases hvx : x.storage.get? key with
  | none =>
    cases hvy : y.storage.get? key with
    | none => rfl
    | some value =>
      rw [hvx, hvy, Option.getD_none, Option.getD_some] at hslot
      exact absurd (hslot ▸ hy key value hvy) (by decide)
  | some value =>
    cases hvy : y.storage.get? key with
    | none =>
      rw [hvx, hvy, Option.getD_none, Option.getD_some] at hslot
      exact absurd (hslot ▸ hx key value hvx) (by decide)
    | some value' =>
      rw [hvx, hvy, Option.getD_some, Option.getD_some] at hslot
      rw [hslot]

namespace World

variable {v w : World}

theorem account?_of_finalised (h : w.pending = .empty) (a : Address) :
    w.account? a = w.finalised.get? a := by
  rw [account?, h, SortedMap.get?_empty, Option.none_or]

/-- States with the same accounts answer alike. -/
theorem readAlike_of_finalised_eq (hv : v.pending = .empty) (hw : w.pending = .empty)
    (h : v.finalised = w.finalised) : v.ReadAlike w := by
  have hread : ∀ a, v.account? a = w.account? a := by
    intro a
    rw [account?_of_finalised hv, account?_of_finalised hw, h]
  have hfield : ∀ {α : Type} (field : Account → α) (a : Address),
      field (v.accountD a) = field (w.accountD a) := by
    intro α field a
    rw [accountD, hread, accountD]
  exact {
    exists? := fun a => congrArg Option.isSome (hread a)
    nonce := hfield Account.nonce
    balance := hfield Account.balance
    code := hfield Account.code
    storage := fun a key => hfield (fun account => account.slot key) a }

/-- Finalised states that answer alike have the same accounts. -/
theorem finalised_eq_of_readAlike (hv : v.pending = .empty) (hw : w.pending = .empty)
    (hvzero : v.NoZeroSlot) (hwzero : w.NoZeroSlot) (h : v.ReadAlike w) :
    v.finalised = w.finalised := by
  refine SortedMap.ext_get? fun a => ?_
  have hexists := h.exists? a
  have hnonce := h.nonce a
  have hbalance := h.balance a
  have hcode := h.code a
  have hstorage := h.storage a
  simp only [exists?, nonce, balance, code, storage, accountD, account?_of_finalised hv,
    account?_of_finalised hw] at hexists hnonce hbalance hcode hstorage
  cases hx : v.finalised.get? a with
  | none =>
    cases hy : w.finalised.get? a with
    | none => rfl
    | some y => simp [hx, hy] at hexists
  | some x =>
    cases hy : w.finalised.get? a with
    | none => simp [hx, hy] at hexists
    | some y =>
      simp only [hx, hy, Option.getD_some] at hnonce hbalance hcode hstorage
      have hslots := Account.storage_eq_of_slot_eq (hvzero a x hx) (hwzero a y hy) hstorage
      cases x
      cases y
      cases hnonce
      cases hbalance
      cases hcode
      cases hslots
      rfl

/-- Finalised states that answer alike have one root. -/
theorem root_eq_of_readAlike (hv : v.pending = .empty) (hw : w.pending = .empty)
    (hvzero : v.NoZeroSlot) (hwzero : w.NoZeroSlot) (h : v.ReadAlike w) : v.root = w.root := by
  rw [root, root, finalised_eq_of_readAlike hv hw hvzero hwzero h]

/-! ## The root and the state -/

/-- What is hashed determines the digests of all addresses, whatever function hashes code and
storage, and what is hashed of a storage determines the storage. So states with one root have the
same accounts, or the hash fails on them. And states that answer alike have one root, whichever way
they came about. -/
theorem root_binds :
    (∀ (hash : Bytes → Hash) (m n : SortedMap Address Account),
      encodingBy hash m = encodingBy hash n →
        ∀ a, (m.get? a).map (Account.digest hash) = (n.get? a).map (Account.digest hash)) ∧
    (∀ s t : SortedMap Hash Hash,
      Account.storageEncoding s = Account.storageEncoding t → s = t) ∧
    (∀ w : World, w.root = keccak256 (encodingBy keccak256 w.finalised)) ∧
    (∀ v w : World, v.root = w.root →
      v.finalised = w.finalised ∨ Confused keccak256 v.finalised w.finalised) ∧
    ∀ v w : World, v.pending = .empty → w.pending = .empty → v.NoZeroSlot → w.NoZeroSlot →
      v.ReadAlike w → v.root = w.root := by
  refine ⟨?_, fun s t => storageEncoding_inj, ?_, ?_, ?_⟩
  · intro hash m n hencoding a
    exact digest_eq_of_encodingBy_eq hencoding a
  · intro w
    rw [encodingBy_keccak256, root]
  · intro v w hroot
    exact eq_or_confused hroot
  · intro v w hv hw hvzero hwzero hread
    exact root_eq_of_readAlike hv hw hvzero hwzero hread

/-- A contract with one slot, written as it is. -/
def writtenAtOnce : World :=
  ({} : World).insertFinalised 1
    { balance := 5, code := [1], storage := SortedMap.ofList [(2, 3)] }

/-- The same contract, written step by step, with slots that change and go, with an empty account
and with a log. -/
def writtenInSteps : World :=
  ([.setCode 1 [1], .setStorage 1 2 9, .touch 7, .addBalance 1 5, .setStorage 1 8 4,
    .setStorage 1 2 3, .setStorage 1 8 0].foldl Write.perform ({} : World)
    |>.addLog { address := 1 }).finalise true

theorem root_binds_histories :
    writtenInSteps ≠ writtenAtOnce ∧ writtenInSteps.ReadAlike writtenAtOnce ∧
    writtenInSteps.root = writtenAtOnce.root ∧
    (writtenInSteps.finalised = writtenAtOnce.finalised ∨
      Confused keccak256 writtenInSteps.finalised writtenAtOnce.finalised) ∧
    ∀ a, (writtenInSteps.finalised.get? a).map (Account.digest keccak256) =
      (writtenAtOnce.finalised.get? a).map (Account.digest keccak256) := by
  obtain ⟨hdigests, -, -, hconfused, hroot⟩ := root_binds
  have haccounts : writtenInSteps.finalised = writtenAtOnce.finalised := by decide
  have hread : writtenInSteps.ReadAlike writtenAtOnce := readAlike_of_finalised_eq rfl rfl haccounts
  have heq : writtenInSteps.root = writtenAtOnce.root :=
    hroot writtenInSteps writtenAtOnce rfl rfl (by decide) (by decide) hread
  refine ⟨by decide, hread, heq, hconfused _ _ heq, ?_⟩
  exact hdigests keccak256 _ _ (congrArg (encodingBy keccak256) haccounts)

end World

end TwinLedger
