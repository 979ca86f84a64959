import TwinLedger.Chain.Signer
import TwinLedger.Execution.Basic

/-!
# Errors of block processing

A transaction is rejected because it has no sender or because its message cannot be included.
When two executors disagree about it, that is a mismatch, also if the bundle that describes it
could not be written. Every such error ends the block. A contract that halts is no error.
-/

namespace TwinLedger

/-- Why a transaction is not applied. -/
inductive Rejection where
  | sender (error : SignerError)
  | execution (error : ExecutionError)
  deriving DecidableEq

def Rejection.message : Rejection → String
  | .sender e => e.message
  | .execution e => e.message

/-- The comparisons of two outcomes, in the order in which they are made. -/
inductive MismatchCheck where
  | gasUsed
  | receipt
  /-- One side failed and the other did not. -/
  | errorPresence
  | errorText
  | intermediateRoot
  | state
  deriving DecidableEq

namespace MismatchCheck

/-- The check in words. -/
def words : MismatchCheck → String
  | .gasUsed => "gas used"
  | .receipt => "receipt"
  | .errorPresence => "error presence"
  | .errorText => "error text"
  | .intermediateRoot => "intermediate root"
  | .state => "state"

/-- The check as a single name. -/
def name : MismatchCheck → String
  | .gasUsed => "gas_used"
  | .receipt => "receipt"
  | .errorPresence => "error_presence"
  | .errorText => "error_text"
  | .intermediateRoot => "intermediate_root"
  | .state => "state"

def all : List MismatchCheck :=
  [.gasUsed, .receipt, .errorPresence, .errorText, .intermediateRoot, .state]

end MismatchCheck

/-- Two executors disagree. -/
structure Mismatch where
  /-- The first check that failed. -/
  check : MismatchCheck
  /-- What each side has. -/
  detail : String
  deriving DecidableEq

def Mismatch.message (m : Mismatch) : String :=
  "mismatched executor results: " ++ m.check.words ++ ": " ++ m.detail

/-- A failure with its causes, from the outermost on. -/
structure ErrorChain where
  outermost : String
  causes : List String := []
  deriving DecidableEq

/-- The whole chain on one line. -/
def ErrorChain.message (e : ErrorChain) : String := ": ".intercalate (e.outermost :: e.causes)

/-- Why a block is not processed. -/
inductive ProcessError where
  | rejected (rejection : Rejection)
  | mismatch (mismatch : Mismatch)
  /-- A mismatch whose bundle could not be written. -/
  | diagnostics (mismatch : Mismatch) (source : ErrorChain)
  deriving DecidableEq

namespace ProcessError

def message : ProcessError → String
  | .rejected r => r.message
  | .mismatch m => m.message
  | .diagnostics m source =>
    m.message ++ " (persisting diagnostics failed: " ++ source.message ++ ")"

/-- The disagreement behind the error. -/
def mismatch? : ProcessError → Option Mismatch
  | .rejected _ => none
  | .mismatch m | .diagnostics m _ => some m

def isMismatch (e : ProcessError) : Bool := e.mismatch?.isSome

/-- Whether the block ran out of gas. -/
def isGasLimitReached : ProcessError → Bool
  | .rejected (.execution (.gasLimitReached _)) => true
  | _ => false

end ProcessError

end TwinLedger
