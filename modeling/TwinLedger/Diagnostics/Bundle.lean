import TwinLedger.Diagnostics.Disk
import TwinLedger.Diagnostics.Report

/-!
# Bundles

A bundle is the directory of one disagreement: the summary, the header, the transaction, and for
each side the logs of the transaction and the receipt, if there is one. The files are made in
this order, and the first that cannot be made ends the writing; those before it stay.
-/

namespace TwinLedger

/-- What one side made of the transaction. -/
structure BranchArtifacts where
  seat : Seat
  logs : List Log
  receipt : Option Receipt
  deriving DecidableEq

namespace BranchArtifacts

/-- The name of the file of a log, by its position among the logs of the transaction. -/
def logName (seat : Seat) (i : Nat) : String :=
  "logs-" ++ seat.name ++ "-" ++ toString i ++ ".json"

def receiptName (seat : Seat) : String := "receipt-" ++ seat.name ++ ".json"

/-- The files of one side, in order. -/
def files (b : BranchArtifacts) : List (String × Json) :=
  (b.logs.zipIdx.map fun (l, i) => (logName b.seat i, l.form)) ++
    (b.receipt.toList.map fun r => (receiptName b.seat, r.form))

end BranchArtifacts

/-- Why a bundle is not written. -/
inductive BundleError where
  | directory (path : String)
  | file (path : String)
  deriving DecidableEq

/-- The failure as the caller sees it. What the system says about it is not kept. -/
def BundleError.chain : BundleError → ErrorChain
  | .directory path => { outermost := "failed to create " ++ path }
  | .file path => { outermost := "unable to create " ++ path }

/-- All that describes a disagreement. -/
structure Bundle where
  header : Header
  tx : Transaction
  report : DiagnosticReport
  branches : List BranchArtifacts

namespace Bundle

/-- The files in the order of writing. -/
def files (b : Bundle) : List (String × Json) :=
  ("summary.json", b.report.form) :: ("header.json", b.header.form) ::
    ("tx.json", b.tx.form) :: b.branches.flatMap BranchArtifacts.files

/-- Makes the files in a directory, as far as that goes. -/
def writeFiles (directory : String) :
    List (String × Json) → Disk → Except BundleError Unit × Disk
  | [], disk => (.ok (), disk)
  | (name, content) :: rest, disk =>
    let path := Path.join directory name
    match disk.makeFile? path content.pretty with
    | none => (.error (.file path), disk)
    | some disk => writeFiles directory rest disk

/-- Makes the directory of the bundle and the files in it. -/
def write (b : Bundle) (location : DiagnosticsLocation) (disk : Disk) :
    Except BundleError Unit × Disk :=
  let directory := location.bundleDirectory b.header.number b.report.txHash
  match disk.makeDirectory? directory with
  | none => (.error (.directory directory), disk)
  | some disk => writeFiles directory b.files disk

end Bundle

end TwinLedger
