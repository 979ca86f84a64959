import TwinLedger.Chain.Address
import TwinLedger.Chain.Shown
import TwinLedger.World.Basic

/-!
# The difference of two worlds

Lists what two worlds disagree about: accounts in the order of their addresses, then the refund
counter, then the logs. Storage slots are compared as they are kept, so a zero written out
differs from an absent slot, although both show as zero.
-/

namespace TwinLedger

/-- A disagreement about an account that both sides have. -/
inductive AccountDifference where
  | nonce (left right : U64)
  | balance (left right : U256)
  | code (left right : Bytes)
  | storage (key left right : Hash)
  deriving DecidableEq

/-- One disagreement of two worlds. -/
inductive Difference where
  | missingRight (address : Address)
  | missingLeft (address : Address)
  | account (address : Address) (difference : AccountDifference)
  | refund (left right : U64)
  | logCount (left right : Nat)
  | log (index : Nat) (left right : Log)
  deriving DecidableEq

namespace AccountDifference

/-- The field that differs and its two values, left and right. -/
def text : AccountDifference → String
  | .nonce l r => "nonce: " ++ l.decimal ++ " != " ++ r.decimal
  | .balance l r => "balance: " ++ l.decimal ++ " != " ++ r.decimal
  | .code l r => "code: " ++ l.hex ++ " != " ++ r.hex
  | .storage key l r => "storage." ++ key.hex ++ ": " ++ l.hex ++ " != " ++ r.hex

end AccountDifference

namespace Difference

/-- One line: a path and the two values, left and right. -/
def text : Difference → String
  | .missingRight a => "accounts." ++ a.checksum ++ ": present != <missing>"
  | .missingLeft a => "accounts." ++ a.checksum ++ ": <missing> != present"
  | .account a d => "accounts." ++ a.checksum ++ "." ++ d.text
  | .refund l r => "refund: " ++ l.decimal ++ " != " ++ r.decimal
  | .logCount l r => "logs.len: " ++ toString l ++ " != " ++ toString r
  | .log i l r => "logs." ++ toString i ++ ": " ++ l.shown ++ " != " ++ r.shown

end Difference

namespace Account

/-- The disagreement about one slot, if the slots differ. -/
def diffSlot (l r : Account) (key : Hash) : Option AccountDifference :=
  if l.storage.get? key = r.storage.get? key then none
  else some (.storage key (l.slot key) (r.slot key))

/-- What two accounts disagree about. -/
def diff (l r : Account) : List AccountDifference :=
  (if l.nonce = r.nonce then [] else [.nonce l.nonce r.nonce]) ++
  (if l.balance = r.balance then [] else [.balance l.balance r.balance]) ++
  (if l.code = r.code then [] else [.code l.code r.code]) ++
  (l.storage.overlay r.storage).keys.filterMap (diffSlot l r)

end Account

namespace World

/-- What two worlds disagree about at one address. -/
def diffAt (l r : SortedMap Address Account) (a : Address) : List Difference :=
  match l.get? a, r.get? a with
  | some x, some y => (x.diff y).map (.account a)
  | some _, none => [.missingRight a]
  | none, some _ => [.missingLeft a]
  | none, none => []

/-- The places, counted from a start, where two lists of logs differ as far as both go. -/
def diffLogs : Nat → List Log → List Log → List Difference
  | i, l :: ls, r :: rs =>
    (if l = r then [] else [.log i l r]) ++ diffLogs (i + 1) ls rs
  | _, _, _ => []

/-- What two worlds disagree about. -/
def diff (l r : World) : List Difference :=
  (l.accounts.overlay r.accounts).keys.flatMap (diffAt l.accounts r.accounts) ++
  (if l.refund = r.refund then [] else [.refund l.refund r.refund]) ++
  (if l.logs.length = r.logs.length then [] else [.logCount l.logs.length r.logs.length]) ++
  diffLogs 0 l.logs r.logs

end World

end TwinLedger
