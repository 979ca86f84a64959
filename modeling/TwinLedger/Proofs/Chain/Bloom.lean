import Mathlib.Data.List.Perm.Basic
import TwinLedger.Chain.Receipt
import TwinLedger.Proofs.Data.Numerals

/-!
# What a filter holds

A filter is known by its bits, and a union has the bits of both sides. So, whatever the order in
which strings are put in, a bit is set exactly if one of the strings names it:

> `bit_ofLogs`: the filter of some logs has the bits of their addresses and topics, and no others.

All that a filter of receipts promises comes from that: it is the union of the filters of the
receipts, it depends on no order, no string that was put in is missed, and no bit is set without a
string that names it.
-/

namespace TwinLedger

/-- The strings by which a log is found: its address and its topics. -/
def Log.indexed (l : Log) : List Bytes := l.address.toBytes :: l.topics.map FixedBytes.toBytes

/-- Logs that are found by the same strings: one address, and the same topics in some order. -/
def Log.Alike (l l' : Log) : Prop := l.address = l'.address ∧ l.topics.Perm l'.topics

/-- The same logs in another order, each with its topics in some order. -/
def Log.Rearranged (logs logs' : List Log) : Prop :=
  ∃ between, logs.Perm between ∧ List.Forall₂ Log.Alike between logs'

namespace Bloom

/-- Whether a bit is set. -/
def bit (b : Bloom) (i : Nat) : Bool := b.toNat.testBit i

/-! ## Bit by bit -/

theorem ext_bit {a b : Bloom} (h : ∀ i, a.bit i = b.bit i) : a = b :=
  FixedBytes.ext (Nat.eq_of_testBit_eq h)

@[simp] theorem bit_zero (i : Nat) : bit 0 i = false := by
  rw [bit, FixedBytes.toNat_zero, Nat.zero_testBit]

@[simp] theorem bit_union (a b : Bloom) (i : Nat) : (a.union b).bit i = (a.bit i || b.bit i) :=
  Nat.testBit_or a.toNat b.toNat i

/-- A string names bits that the filter has. -/
theorem lt_of_mem_positions {i : Nat} {input : Bytes} (h : i ∈ positions input) : i < 2048 := by
  simp only [positions, List.mem_cons, List.not_mem_nil, or_false] at h
  omega

theorem bit_wrap_shiftLeft {i : Nat} (hi : i < 2048) (j : Nat) :
    bit (.wrap (1 <<< i)) j = true ↔ j = i := by
  have hlt : 1 <<< i < Word.range (8 * 256) := by
    rw [Nat.one_shiftLeft]
    exact Word.two_pow_lt_range hi
  rw [bit, FixedBytes.toNat_wrap_of_lt hlt, Nat.one_shiftLeft, Nat.testBit_two_pow,
    decide_eq_true_iff, eq_comm]

/-- A string sets the bits that it names and no others. -/
theorem bit_accrue (b : Bloom) (input : Bytes) (i : Nat) :
    (b.accrue input).bit i = true ↔ b.bit i = true ∨ i ∈ positions input := by
  have hinput : (ofInput input).bit i = true ↔ i ∈ positions input := by
    have hnamed := fun j (hj : j ∈ positions input) => bit_wrap_shiftLeft (lt_of_mem_positions hj) i
    simp only [positions, List.forall_mem_cons] at hnamed
    obtain ⟨hfirst, hsecond, hthird, -⟩ := hnamed
    simp only [ofInput, positions, List.foldl_cons, List.foldl_nil, bit_union, bit_zero,
      Bool.or_eq_true, hfirst, hsecond, hthird, List.mem_cons, List.not_mem_nil, or_false,
      Bool.false_eq_true, false_or, or_assoc]
  rw [accrue, bit_union, Bool.or_eq_true, hinput]

theorem bit_foldl_accrue (inputs : List Bytes) (b : Bloom) (i : Nat) :
    (inputs.foldl accrue b).bit i = true ↔
      b.bit i = true ∨ ∃ input ∈ inputs, i ∈ positions input := by
  induction inputs generalizing b with
  | nil => simp only [List.foldl_nil, List.not_mem_nil, false_and, exists_false, or_false]
  | cons input inputs ih =>
    rw [List.foldl_cons, ih, bit_accrue, or_assoc]
    simp only [List.mem_cons, or_and_right, exists_or, exists_eq_left]

/-- A log puts in its address and its topics, one after the other. -/
theorem accrueLog_eq (b : Bloom) (l : Log) : b.accrueLog l = l.indexed.foldl accrue b := by
  rw [accrueLog, Log.indexed, List.foldl_cons, List.foldl_map]

theorem ofLogs_eq (logs : List Log) : ofLogs logs = (logs.flatMap Log.indexed).foldl accrue 0 := by
  rw [ofLogs, List.foldl_flatMap]
  congr
  funext b l
  exact accrueLog_eq b l

/-- The filter of some logs has the bits of their addresses and topics, and no others. -/
theorem bit_ofLogs (logs : List Log) (i : Nat) :
    (ofLogs logs).bit i = true ↔ ∃ l ∈ logs, ∃ input ∈ l.indexed, i ∈ positions input := by
  rw [ofLogs_eq, bit_foldl_accrue, bit_zero]
  simp only [Bool.false_eq_true, false_or, List.mem_flatMap]
  constructor
  · rintro ⟨input, ⟨l, hl, hinput⟩, hi⟩
    exact ⟨l, hl, input, hinput, hi⟩
  · rintro ⟨l, hl, input, hinput, hi⟩
    exact ⟨input, ⟨l, hl, hinput⟩, hi⟩

/-! ## Parts and orders -/

theorem ofLogs_append (logs logs' : List Log) :
    ofLogs (logs ++ logs') = (ofLogs logs).union (ofLogs logs') := by
  apply ext_bit
  intro i
  rw [Bool.eq_iff_iff, bit_union, Bool.or_eq_true, bit_ofLogs, bit_ofLogs, bit_ofLogs]
  simp only [List.mem_append, or_and_right, exists_or]

/-- Logs that are found by the same strings have the same filter. -/
theorem ofLogs_rearranged {logs logs' : List Log} (h : Log.Rearranged logs logs') :
    ofLogs logs = ofLogs logs' := by
  obtain ⟨between, hperm, halike⟩ := h
  have hindexed : ∀ {l l' : Log}, l.Alike l' → l.indexed.Perm l'.indexed := by
    rintro l l' ⟨haddress, htopics⟩
    rw [Log.indexed, Log.indexed, haddress]
    exact (htopics.map _).cons _
  -- Put together, the strings of all logs are the same up to their order.
  have hstrings : (logs.flatMap Log.indexed).Perm (logs'.flatMap Log.indexed) := by
    refine (hperm.flatMap_right _).trans ?_
    clear hperm
    induction halike with
    | nil => exact .nil
    | cons hl _ ih => exact (hindexed hl).append ih
  apply ext_bit
  intro i
  rw [Bool.eq_iff_iff, ofLogs_eq, ofLogs_eq, bit_foldl_accrue, bit_foldl_accrue]
  simp only [hstrings.mem_iff]

theorem mayContain_iff (b : Bloom) (input : Bytes) :
    b.mayContain input = true ↔ ∀ i ∈ positions input, b.bit i = true := List.all_eq_true

/-- No string by which a log is found is missed. -/
theorem mayContain_ofLogs {logs : List Log} {l : Log} (hl : l ∈ logs) {input : Bytes}
    (hinput : input ∈ l.indexed) : (ofLogs logs).mayContain input = true :=
  (mayContain_iff _ _).2 fun i hi => (bit_ofLogs logs i).2 ⟨l, hl, input, hinput, hi⟩

/-- The filter of receipts is the union of theirs. -/
theorem ofReceipts_eq_union {receipts : List Receipt}
    (h : ∀ r ∈ receipts, ∃ bare logs, r = Receipt.setLogs bare logs) :
    ofReceipts receipts = (receipts.map (·.bloom)).foldr union 0 := by
  induction receipts with
  | nil => rfl
  | cons r rest ih =>
    obtain ⟨⟨bare, logs, hr⟩, hrest⟩ := List.forall_mem_cons.1 h
    have hbloom : r.bloom = ofLogs r.logs := by rw [hr]; rfl
    rw [ofReceipts, List.flatMap_cons, ofLogs_append, List.map_cons, List.foldr_cons, hbloom,
      ← ih hrest]
    rfl

/-! ## Filters of receipts -/

/-- The filter over receipts whose logs were set together with their filters is the union of these.
It is the same for the receipts in another order, and wherever the logs or the topics of a log are
in another order. It has the bits of the address and of each topic of every log, so that none of
these is missed, and every bit that it has is that of such an address or topic. -/
theorem ofReceipts_composes (receipts : List Receipt)
    (hset : ∀ r ∈ receipts, ∃ bare logs, r = Receipt.setLogs bare logs) :
    ofReceipts receipts = (receipts.map (·.bloom)).foldr union 0 ∧
    (∀ receipts', receipts.Perm receipts' → ofReceipts receipts' = ofReceipts receipts) ∧
    (∀ receipts' : List Receipt,
      Log.Rearranged (receipts.flatMap (·.logs)) (receipts'.flatMap (·.logs)) →
      ofReceipts receipts' = ofReceipts receipts) ∧
    (∀ r ∈ receipts, ∀ l ∈ r.logs,
      (ofReceipts receipts).mayContain l.address.toBytes = true ∧
      ∀ t ∈ l.topics, (ofReceipts receipts).mayContain t.toBytes = true) ∧
    ∀ i, (ofReceipts receipts).bit i = true →
      ∃ r ∈ receipts, ∃ l ∈ r.logs,
        i ∈ positions l.address.toBytes ∨ ∃ t ∈ l.topics, i ∈ positions t.toBytes := by
  refine ⟨ofReceipts_eq_union hset, ?_, ?_, ?_, ?_⟩
  · intro receipts' hperm
    have hsame : ∀ ls : List Log, List.Forall₂ Log.Alike ls ls :=
      fun ls => List.forall₂_same.2 fun l _ => ⟨rfl, .refl _⟩
    exact (ofLogs_rearranged ⟨_, hperm.flatMap_right _, hsame _⟩).symm
  · exact fun receipts' h => (ofLogs_rearranged h).symm
  · intro r hr l hl
    have hmem : l ∈ receipts.flatMap (·.logs) := List.mem_flatMap.2 ⟨r, hr, hl⟩
    refine ⟨mayContain_ofLogs hmem List.mem_cons_self, fun t ht => ?_⟩
    exact mayContain_ofLogs hmem (List.mem_cons_of_mem _ (List.mem_map_of_mem ht))
  · intro i hi
    obtain ⟨l, hmem, input, hinput, hposition⟩ := (bit_ofLogs _ i).1 hi
    obtain ⟨r, hr, hl⟩ := List.mem_flatMap.1 hmem
    refine ⟨r, hr, l, hl, ?_⟩
    rcases List.mem_cons.1 hinput with rfl | htopic
    · exact Or.inl hposition
    · obtain ⟨t, ht, rfl⟩ := List.mem_map.1 htopic
      exact Or.inr ⟨t, ht, hposition⟩

/-- A log with two topics. -/
def twoTopics (first second : Hash) : Log :=
  { address := .replicate 0x11, topics := [first, second] }

/-- The receipt of a transaction with some logs. -/
def receiptOf (logs : List Log) : Receipt := (Receipt.new none false 21000).setLogs logs

/-- A receipt with a log and one without, in either order, and with the topics in either order: the
filter is the union of the two, and the second topic is found in it. -/
theorem ofReceipts_composes_two_topics :
    (∀ r ∈ [receiptOf [twoTopics 1 2], receiptOf []],
      ∃ bare logs, r = Receipt.setLogs bare logs) ∧
    ofReceipts [receiptOf [twoTopics 1 2], receiptOf []] =
      (receiptOf [twoTopics 1 2]).bloom.union ((receiptOf []).bloom.union 0) ∧
    ofReceipts [receiptOf [], receiptOf [twoTopics 1 2]] =
      ofReceipts [receiptOf [twoTopics 1 2], receiptOf []] ∧
    ofReceipts [receiptOf [twoTopics 2 1]] =
      ofReceipts [receiptOf [twoTopics 1 2], receiptOf []] ∧
    (ofReceipts [receiptOf [twoTopics 1 2], receiptOf []]).mayContain
      (2 : Hash).toBytes = true := by
  have hset : ∀ r ∈ [receiptOf [twoTopics 1 2], receiptOf []],
      ∃ bare logs, r = Receipt.setLogs bare logs :=
    List.forall_mem_cons.2 ⟨⟨_, _, rfl⟩, List.forall_mem_singleton.2 ⟨_, _, rfl⟩⟩
  obtain ⟨hunion, hreceipts, hlogs, hfound, -⟩ :=
    ofReceipts_composes [receiptOf [twoTopics 1 2], receiptOf []] hset
  simp only [List.map_cons, List.map_nil, List.foldr_cons, List.foldr_nil] at hunion
  have htopics : Log.Rearranged [twoTopics 1 2] [twoTopics 2 1] :=
    ⟨_, .refl _, .cons ⟨rfl, .swap _ _ _⟩ .nil⟩
  refine ⟨hset, hunion, hreceipts _ (.swap _ _ _), hlogs _ htopics, ?_⟩
  exact (hfound _ List.mem_cons_self (twoTopics 1 2) List.mem_cons_self).2 2
    (List.mem_cons_of_mem _ List.mem_cons_self)

end Bloom

end TwinLedger
