import TwinLedger.Proofs.Block.Verdict
import TwinLedger.Proofs.Chain.Checksum
import TwinLedger.Proofs.Data.Decimal

/-!
# Messages tell their errors

Where both executors reject a transaction, the cross-check compares the messages and not the errors
themselves. Nothing is lost by that:

> two rejections with one message are one rejection (`Rejection.message_inj`).

Every message is written after the format of its kind (`Rejection.message_eq`). It opens with words
of its own, none of which begin with those of another kind, so it tells its kind. Behind them stand
an account, for some kinds, and numbers, each with a label in front. All of them show where they
end: an account is written as long as any other, and no label begins with a digit.
-/

namespace TwinLedger

/-! ## Formats -/

/-- How the messages of one kind are written. -/
structure MessageFormat where
  /-- The words at the beginning. -/
  opening : String
  /-- Whether an account is named behind them. -/
  account : Bool := false
  /-- The words in front of each number. -/
  labels : List String := []

/-- Numbers with their labels in front. -/
def labelled : List String → List Nat → String
  | label :: labels, n :: numbers => label ++ (toString n ++ labelled labels numbers)
  | _, _ => ""

/-- A message in the format. -/
def MessageFormat.render (f : MessageFormat) (account? : Option Address) (numbers : List Nat) :
    String :=
  f.opening ++ (account?.elim "" Address.checksum ++ labelled f.labels numbers)

theorem endsNumeral_labelled {labels : List String} (h : ∀ l ∈ labels, EndsNumeral l ∧ l ≠ "")
    (numbers : List Nat) : EndsNumeral (labelled labels numbers) := by
  cases labels with
  | nil => exact rfl
  | cons label labels =>
    cases numbers with
    | nil => exact rfl
    | cons n numbers =>
      obtain ⟨hends, hne⟩ := h label List.mem_cons_self
      unfold EndsNumeral at hends ⊢
      rw [labelled, String.toList_append]
      cases hchars : label.toList with
      | nil => exact absurd (String.toList_inj.1 hchars) hne
      | cons c chars =>
        rw [hchars] at hends
        exact hends

/-- Behind labels that end numerals, numbers are known by their text. -/
theorem labelled_inj {labels : List String} (h : ∀ l ∈ labels, EndsNumeral l ∧ l ≠ "")
    {numbers numbers' : List Nat} (hlength : numbers.length = labels.length)
    (hlength' : numbers'.length = labels.length)
    (heq : labelled labels numbers = labelled labels numbers') : numbers = numbers' := by
  induction labels generalizing numbers numbers' with
  | nil =>
    rw [List.length_eq_zero_iff.1 hlength, List.length_eq_zero_iff.1 hlength']
  | cons label labels ih =>
    obtain ⟨-, hlabels⟩ := List.forall_mem_cons.1 h
    cases numbers with
    | nil => cases hlength
    | cons n numbers =>
      cases numbers' with
      | nil => cases hlength'
      | cons n' numbers' =>
        rw [labelled, labelled, String.append_right_inj] at heq
        obtain ⟨rfl, hrest⟩ := (toString_append_inj (endsNumeral_labelled hlabels numbers)
          (endsNumeral_labelled hlabels numbers')).1 heq
        rw [ih hlabels (Nat.succ.inj hlength) (Nat.succ.inj hlength') hrest]

/-! ## The kinds of rejection -/

inductive RejectionKind where
  | invalidPublicKey
  | invalidSignature
  | invalidChainId
  | replayProtectionUnavailable
  | nonceTooHigh
  | nonceTooLow
  | nonceMax
  | insufficientBalanceForGas
  | insufficientBalanceForTransfer
  | intrinsicGas
  | gasOverflow
  | gasLimitReached
  deriving DecidableEq

namespace RejectionKind

def all : List RejectionKind :=
  [.invalidPublicKey, .invalidSignature, .invalidChainId, .replayProtectionUnavailable,
    .nonceTooHigh, .nonceTooLow, .nonceMax, .insufficientBalanceForGas,
    .insufficientBalanceForTransfer, .intrinsicGas, .gasOverflow, .gasLimitReached]

def format : RejectionKind → MessageFormat
  | .invalidPublicKey => ⟨"invalid sender: public key is not a valid ed25519 point", false, []⟩
  | .invalidSignature => ⟨"invalid sender: signature verification failed", false, []⟩
  | .invalidChainId => ⟨"invalid chain id for signer:", false, [" expected ", ", got "]⟩
  | .replayProtectionUnavailable => ⟨"replay protected transaction before EIP-155", false, []⟩
  | .nonceTooHigh => ⟨"nonce too high: address ", true, [", tx: ", " state: "]⟩
  | .nonceTooLow => ⟨"nonce too low: address ", true, [", tx: ", " state: "]⟩
  | .nonceMax => ⟨"nonce has max value: address ", true, [", nonce: "]⟩
  | .insufficientBalanceForGas =>
    ⟨"insufficient funds for gas * price: address ", true, [" have ", " want "]⟩
  | .insufficientBalanceForTransfer =>
    ⟨"insufficient balance for transfer: address ", true, [" have ", " want "]⟩
  | .intrinsicGas => ⟨"intrinsic gas too low:", false, [" have ", ", want "]⟩
  | .gasOverflow => ⟨"gas uint64 overflow", false, []⟩
  | .gasLimitReached => ⟨"gas limit reached:", false, [" available ", ", requested "]⟩

theorem mem_all (k : RejectionKind) : k ∈ all := by cases k <;> decide

/-- No opening begins with another. -/
theorem eq_of_opening_prefix {k k' : RejectionKind}
    (h : k.format.opening.toList <+: k'.format.opening.toList) : k = k' := by
  have hall : ∀ k ∈ all, ∀ k' ∈ all,
      k.format.opening.toList <+: k'.format.opening.toList → k = k' := by
    decide +kernel
  exact hall k k.mem_all k' k'.mem_all h

/-- No label begins with a digit. -/
theorem endsNumeral_label (k : RejectionKind) :
    ∀ l ∈ k.format.labels, EndsNumeral l ∧ l ≠ "" := by
  cases k <;> decide

end RejectionKind

/-! ## A rejection and its parts -/

namespace Rejection

def kind : Rejection → RejectionKind
  | .sender .invalidPublicKey => .invalidPublicKey
  | .sender .invalidSignature => .invalidSignature
  | .sender (.invalidChainId _ _) => .invalidChainId
  | .sender .replayProtectionUnavailable => .replayProtectionUnavailable
  | .execution (.nonceTooHigh _ _ _) => .nonceTooHigh
  | .execution (.nonceTooLow _ _ _) => .nonceTooLow
  | .execution (.nonceMax _ _) => .nonceMax
  | .execution (.insufficientBalanceForGas _ _ _) => .insufficientBalanceForGas
  | .execution (.insufficientBalanceForTransfer _ _ _) => .insufficientBalanceForTransfer
  | .execution (.intrinsicGas _ _) => .intrinsicGas
  | .execution .gasOverflow => .gasOverflow
  | .execution (.gasLimitReached _) => .gasLimitReached

/-- The account that a rejection names. -/
def account? : Rejection → Option Address
  | .execution (.nonceTooHigh a _ _) | .execution (.nonceTooLow a _ _)
  | .execution (.nonceMax a _) | .execution (.insufficientBalanceForGas a _ _)
  | .execution (.insufficientBalanceForTransfer a _ _) => some a
  | _ => none

/-- The numbers that a rejection names. -/
def numbers : Rejection → List Nat
  | .sender (.invalidChainId expected got) => [expected.toNat, got.toNat]
  | .execution (.nonceTooHigh _ tx state) | .execution (.nonceTooLow _ tx state) =>
    [tx.toNat, state.toNat]
  | .execution (.nonceMax _ nonce) => [nonce.toNat]
  | .execution (.insufficientBalanceForGas _ available needed)
  | .execution (.insufficientBalanceForTransfer _ available needed) =>
    [available.toNat, needed.toNat]
  | .execution (.intrinsicGas available needed) => [available.toNat, needed.toNat]
  | .execution (.gasLimitReached s) => [s.available.toNat, s.requested.toNat]
  | _ => []

/-- The rejection of a kind that names an account and numbers. -/
def ofParts? : RejectionKind → Option Address → List Nat → Option Rejection
  | .invalidPublicKey, none, [] => some (.sender .invalidPublicKey)
  | .invalidSignature, none, [] => some (.sender .invalidSignature)
  | .invalidChainId, none, [m, n] => some (.sender (.invalidChainId (.clamp m) (.clamp n)))
  | .replayProtectionUnavailable, none, [] => some (.sender .replayProtectionUnavailable)
  | .nonceTooHigh, some a, [m, n] => some (.execution (.nonceTooHigh a (.clamp m) (.clamp n)))
  | .nonceTooLow, some a, [m, n] => some (.execution (.nonceTooLow a (.clamp m) (.clamp n)))
  | .nonceMax, some a, [n] => some (.execution (.nonceMax a (.clamp n)))
  | .insufficientBalanceForGas, some a, [m, n] =>
    some (.execution (.insufficientBalanceForGas a (.clamp m) (.clamp n)))
  | .insufficientBalanceForTransfer, some a, [m, n] =>
    some (.execution (.insufficientBalanceForTransfer a (.clamp m) (.clamp n)))
  | .intrinsicGas, none, [m, n] => some (.execution (.intrinsicGas (.clamp m) (.clamp n)))
  | .gasOverflow, none, [] => some (.execution .gasOverflow)
  | .gasLimitReached, none, [m, n] => some (.execution (.gasLimitReached ⟨.clamp m, .clamp n⟩))
  | _, _, _ => none

/-- A rejection is made of its kind and of what it names. -/
theorem ofParts?_parts (e : Rejection) : ofParts? e.kind e.account? e.numbers = some e := by
  cases e with
  | sender e => cases e <;> simp only [kind, account?, numbers, ofParts?, Word.clamp_toNat]
  | execution e => cases e <;> simp only [kind, account?, numbers, ofParts?, Word.clamp_toNat]

theorem isSome_account? (e : Rejection) : e.account?.isSome = e.kind.format.account := by
  cases e with
  | sender e => cases e <;> rfl
  | execution e => cases e <;> rfl

theorem length_numbers (e : Rejection) : e.numbers.length = e.kind.format.labels.length := by
  cases e with
  | sender e => cases e <;> rfl
  | execution e => cases e <;> rfl

/-- Every message is written after the format of its kind. -/
theorem message_eq (e : Rejection) :
    e.message = e.kind.format.render e.account? e.numbers := by
  unfold message MessageFormat.render kind account? numbers RejectionKind.format
  cases e with
  | sender e =>
    unfold SignerError.message
    cases e with
    | invalidChainId expected got =>
      have hwords : "invalid chain id for signer: expected " =
        "invalid chain id for signer:" ++ " expected " := by decide +kernel
      dsimp only [labelled, Word.decimal, Option.elim_none]
      simp only [hwords, String.append_assoc, String.append_empty, String.empty_append]
    | _ => exact String.append_empty.symm
  | execution e =>
    unfold ExecutionError.message
    cases e with
    | gasOverflow => exact String.append_empty.symm
    | intrinsicGas available needed =>
      have hwords : "intrinsic gas too low: have " = "intrinsic gas too low:" ++ " have " := by
        decide +kernel
      dsimp only [labelled, Word.decimal, Option.elim_none]
      simp only [hwords, String.append_assoc, String.append_empty, String.empty_append]
    | gasLimitReached shortage =>
      have hwords : "gas limit reached: available " = "gas limit reached:" ++ " available " := by
        decide +kernel
      dsimp only [PoolShortage.message, labelled, Word.decimal, Option.elim_none]
      simp only [hwords, String.append_assoc, String.append_empty, String.empty_append]
    | _ =>
      dsimp only [labelled, Word.decimal, Option.elim_some]
      simp only [String.append_assoc, String.append_empty]

/-! ## What a message tells -/

/-- A message tells its kind by its opening. -/
theorem kind_eq_of_message_eq {e e' : Rejection} (h : e.message = e'.message) :
    e.kind = e'.kind := by
  have hopening : ∀ e : Rejection, e.kind.format.opening.toList <+: e.message.toList := by
    intro e
    rw [message_eq, MessageFormat.render, String.toList_append]
    exact List.prefix_append _ _
  have hleft := hopening e
  rw [h] at hleft
  -- Of two beginnings of one text, the shorter is the beginning of the longer.
  rcases List.prefix_or_prefix_of_prefix hleft (hopening e') with hprefix | hprefix
  · exact RejectionKind.eq_of_opening_prefix hprefix
  · exact (RejectionKind.eq_of_opening_prefix hprefix).symm

/-- A message tells its error, with all that it names. -/
theorem message_inj {e e' : Rejection} : e.message = e'.message ↔ e = e' := by
  constructor
  · intro h
    have hkind := kind_eq_of_message_eq h
    have hsome : e.account?.isSome = e'.account?.isSome := by
      rw [isSome_account?, isSome_account?, hkind]
    have hnumbers := length_numbers e
    rw [message_eq, message_eq, hkind, MessageFormat.render, MessageFormat.render,
      String.append_right_inj] at h
    rw [hkind] at hnumbers
    have hparts : e.account? = e'.account? ∧
        labelled e'.kind.format.labels e.numbers = labelled e'.kind.format.labels e'.numbers := by
      cases ha : e.account? with
      | none =>
        cases ha' : e'.account? with
        | none =>
          rw [ha, ha'] at h
          exact ⟨rfl, String.append_right_inj _ |>.1 h⟩
        | some a' => rw [ha, ha'] at hsome; cases hsome
      | some a =>
        cases ha' : e'.account? with
        | none => rw [ha, ha'] at hsome; cases hsome
        | some a' =>
          rw [ha, ha'] at h
          obtain ⟨rfl, hrest⟩ := Address.checksum_append_inj.1 h
          exact ⟨rfl, hrest⟩
    have hnumbers' := labelled_inj e'.kind.endsNumeral_label hnumbers (length_numbers e') hparts.2
    have hmade := ofParts?_parts e
    rw [hkind, hparts.1, hnumbers', ofParts?_parts, Option.some.injEq] at hmade
    exact hmade.symm
  · exact congrArg message

end Rejection

/-! ## What is accepted -/

/-- Two sides agree about a transaction that passes. -/
theorem agree_of_verify {chain : Chain} {executors : Executors} {location : DiagnosticsLocation}
    {author : Option Address} {header : Header} {tx : Transaction} {live : Live}
    {disk written : Disk} {a r : Applied}
    (ha : applyWith chain executors.alternate author header tx live = .ok a)
    (hr : applyWith chain executors.reference author header tx live = .ok r)
    (h : verify chain executors location author header tx live disk = .ok (.ok (), written)) :
    Agree (chain.config.isEip158 header.number) a r := by
  cases hd : disagreement? (chain.config.isEip158 header.number) a r with
  | none => exact (disagreement?_eq_none_iff _ a r).1 hd
  | some d =>
    obtain ⟨e, written', hrefused, -⟩ := verify_of_disagreement ha hr hd location disk
    rw [h] at hrefused
    cases hrefused

/-- Two rejections have one message exactly if they are the same rejection, with the same fields. So
where a transaction passes that both executors reject, they reject it with the same error. -/
theorem messages_tell_errors :
    (∀ e e' : Rejection, e.message = e'.message ↔ e = e') ∧
    ∀ (chain : Chain) (executors : Executors) (location : DiagnosticsLocation)
      (author : Option Address) (header : Header) (tx : Transaction) (live : Live)
      (disk written : Disk) (a r : Applied),
      applyWith chain executors.alternate author header tx live = .ok a →
      applyWith chain executors.reference author header tx live = .ok r →
      verify chain executors location author header tx live disk = .ok (.ok (), written) →
      ∀ e e', a.outcome = .error e → r.outcome = .error e' → e = e' := by
  refine ⟨fun e e' => Rejection.message_inj, ?_⟩
  intro chain executors location author header tx live disk written a r ha hr h e e' he he'
  obtain ⟨houtcome, -⟩ := agree_of_verify ha hr h
  unfold Applied.SameOutcome at houtcome
  rw [he, he'] at houtcome
  exact Rejection.message_inj.1 houtcome

/-- Refuses every message, and leaves a refund behind. -/
def refusing (refund : U64) : TotalExecutor := fun _ _ w pool =>
  ⟨.error (.gasLimitReached ⟨1, 23⟩), w.addRefund refund, pool⟩

/-- Two refusals that leave different refunds behind pass the check, so they are the same; with the
digits parted in another way the message is another one. -/
theorem messages_tell_errors_refusing :
    (Rejection.execution (.gasLimitReached ⟨1, 23⟩)).message ≠
      (Rejection.execution (.gasLimitReached ⟨12, 3⟩)).message ∧
    ∃ a r e e',
      applyWith plainChain (refusing 7).executor none {} neutralTransaction plainLive = .ok a ∧
      applyWith plainChain (refusing 0).executor none {} neutralTransaction plainLive = .ok r ∧
      verify plainChain ⟨(refusing 0).executor, (refusing 7).executor⟩ ⟨"home", "space"⟩ none {}
        neutralTransaction plainLive {} = .ok (.ok (), {}) ∧
      a.outcome = .error e ∧ r.outcome = .error e' ∧ e = e' := by
  obtain ⟨hinj, haccepted⟩ := messages_tell_errors
  refine ⟨fun h => absurd ((hinj _ _).1 h) (by decide), ?_⟩
  obtain ⟨message, hmessage⟩ := exists_neutralMessage
  let executors : Executors := ⟨(refusing 0).executor, (refusing 7).executor⟩
  have hrun : ∀ refund, applyWith plainChain (refusing refund).executor none {} neutralTransaction
      plainLive = .ok ⟨.error (.execution (.gasLimitReached ⟨1, 23⟩)),
        { plainLive with world := plainLive.world.addRefund refund }⟩ := by
    intro refund
    unfold applyWith
    rw [hmessage]
    rfl
  have ha : applyWith plainChain executors.alternate none {} neutralTransaction
      plainLive.copy = _ := hrun 7
  have hr : applyWith plainChain executors.reference none {} neutralTransaction
      plainLive.copy = _ := hrun 0
  have hpass := verify_of_agree ha hr
    ((disagreement?_eq_none_iff _ _ _).2 ⟨rfl, rfl⟩) ⟨"home", "space"⟩ {}
  exact ⟨_, _, _, _, ha, hr, hpass, rfl, rfl,
    haccepted _ _ _ _ _ _ _ _ _ _ _ ha hr hpass _ _ rfl rfl⟩

end TwinLedger
