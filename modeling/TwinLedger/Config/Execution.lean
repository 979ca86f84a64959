import TwinLedger.Data.Hex
import TwinLedger.Diagnostics.Path

/-!
# The choices of a caller

Which of the two executors commits, whether both check each other first, and where a
disagreement is written down.
-/

namespace TwinLedger

/-- The two places for an executor. -/
inductive Seat where
  | reference
  | alternate
  deriving DecidableEq

def Seat.name : Seat → String
  | .reference => "reference"
  | .alternate => "alternate"

/-- Whether every transaction is run by both executors before it is committed. -/
inductive Verification where
  | enabled
  | disabled
  deriving DecidableEq

def Verification.name : Verification → String
  | .enabled => "enabled"
  | .disabled => "disabled"

/-- The directory tree that takes the bundles. -/
structure DiagnosticsLocation where
  home : String
  space : String := "dualvm-debug"
  deriving DecidableEq

/-- The directory of the bundle of a transaction. -/
def DiagnosticsLocation.bundleDirectory (l : DiagnosticsLocation) (number : U64) (txHash : Hash) :
    String :=
  Path.join (Path.join (Path.join l.home l.space) number.decimal) txHash.hex

/-- The choices for one block. -/
structure ExecutionConfig where
  /-- The seat whose effects are committed. -/
  executor : Seat := .reference
  verification : Verification := .enabled
  diagnostics : DiagnosticsLocation
  deriving DecidableEq

def ExecutionConfig.verificationEnabled (c : ExecutionConfig) : Bool := c.verification == .enabled

end TwinLedger
