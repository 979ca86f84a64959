import TwinLedger.Block.Error
import TwinLedger.Json.ConfigForms

/-!
# Reports of a disagreement

The summary that a bundle opens with: which transaction of which block, what differs, how each
side ended, and the differences of the two worlds line by line.
-/

namespace TwinLedger

/-- How one side ended. -/
structure BranchReport where
  gasUsed : U64
  error : Option String
  deriving DecidableEq

/-- The summary of a disagreement. -/
structure DiagnosticReport where
  blockNumber : U64
  txHash : Hash
  mismatch : Mismatch
  alternate : BranchReport
  reference : BranchReport
  /-- Alternate on the left, reference on the right. -/
  diff : List String
  deriving DecidableEq

def MismatchCheck.decoder : Decoder MismatchCheck :=
  Decoder.named (MismatchCheck.all.map fun c => (c.name, c))

def Mismatch.form (m : Mismatch) : Json :=
  .object [("check", .string m.check.name), ("detail", .string m.detail)]

def Mismatch.decoder : Decoder Mismatch :=
  .record <| Mismatch.mk <$> .required "check" MismatchCheck.decoder <*> .required "detail" .text

def BranchReport.form (b : BranchReport) : Json :=
  .object [("gas_used", b.gasUsed.form), ("error", .ofOption .string b.error)]

def BranchReport.decoder : Decoder BranchReport :=
  .record <| BranchReport.mk <$> .required "gas_used" .u64 <*> .optional "error" .text

def DiagnosticReport.form (r : DiagnosticReport) : Json :=
  .object
    [("block_number", r.blockNumber.form), ("tx_hash", r.txHash.form),
      ("mismatch", r.mismatch.form), ("alternate", r.alternate.form),
      ("reference", r.reference.form), ("diff", .array (r.diff.map .string))]

def DiagnosticReport.decoder : Decoder DiagnosticReport :=
  .record <| DiagnosticReport.mk <$> .required "block_number" .u64 <*>
    .required "tx_hash" (.fixed 32) <*> .required "mismatch" Mismatch.decoder <*>
    .required "alternate" BranchReport.decoder <*> .required "reference" BranchReport.decoder <*>
    .required "diff" (.list .text)

end TwinLedger
