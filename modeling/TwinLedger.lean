import TwinLedger.Block.Rewards
import TwinLedger.Execution.Fault
import TwinLedger.World.Journal
import TwinLedger.Proofs.Data.Numerals
import TwinLedger.Proofs.Data.Decimal
import TwinLedger.Proofs.Data.Hexadecimal
import TwinLedger.Proofs.Rlp
import TwinLedger.Proofs.Program.Decoding
import TwinLedger.Proofs.Program.Cursor
import TwinLedger.Proofs.Rlp.Canonical
import TwinLedger.Proofs.Chain.Signing
import TwinLedger.Proofs.Chain.Encoding
import TwinLedger.Proofs.Chain.Checksum
import TwinLedger.Proofs.Chain.Bloom
import TwinLedger.Proofs.World.Writes
import TwinLedger.Proofs.World.Journal
import TwinLedger.Proofs.World.Finalise
import TwinLedger.Proofs.World.Layers
import TwinLedger.Proofs.World.Balances
import TwinLedger.Proofs.World.Drain
import TwinLedger.Proofs.World.WellFormed
import TwinLedger.Proofs.World.Commitment
import TwinLedger.Proofs.World.Difference
import TwinLedger.Proofs.Execution.WriteSet
import TwinLedger.Proofs.Execution.Buffering
import TwinLedger.Proofs.Execution.Interpreter
import TwinLedger.Proofs.Execution.Stores
import TwinLedger.Proofs.Execution.Admission
import TwinLedger.Proofs.Execution.Agreement
import TwinLedger.Proofs.Execution.Requirements
import TwinLedger.Proofs.Execution.Lockstep
import TwinLedger.Proofs.Execution.Effects
import TwinLedger.Proofs.Execution.Settlement
import TwinLedger.Proofs.Execution.Emission
import TwinLedger.Proofs.Execution.Totality
import TwinLedger.Proofs.Execution.Streaming
import TwinLedger.Proofs.Execution.Range
import TwinLedger.Proofs.Execution.Identity
import TwinLedger.Proofs.Execution.Ledger
import TwinLedger.Proofs.Execution.Rollback
import TwinLedger.Proofs.Execution.Surplus
import TwinLedger.Proofs.Execution.Locality
import TwinLedger.Proofs.Execution.Creation
import TwinLedger.Proofs.Block.Verdict
import TwinLedger.Proofs.Block.Explanation
import TwinLedger.Proofs.Block.Transparency
import TwinLedger.Proofs.Block.Rejection
import TwinLedger.Proofs.Block.Run
import TwinLedger.Proofs.Block.Contracts
import TwinLedger.Proofs.Block.GasAccounting
import TwinLedger.Proofs.Block.Conservation
import TwinLedger.Proofs.Block.Replay
import TwinLedger.Proofs.Block.Storage
import TwinLedger.Proofs.Block.Logs
import TwinLedger.Proofs.Block.Messages
import TwinLedger.Proofs.Json.Lexeme
import TwinLedger.Proofs.Json.Document
import TwinLedger.Proofs.Json.Decoder
import TwinLedger.Proofs.Json.Forms
import TwinLedger.Proofs.Diagnostics.Disk
import TwinLedger.Proofs.Diagnostics.FileName
import TwinLedger.Proofs.Diagnostics.Bundle
