import TwinLedger.Chain.Address
import TwinLedger.Chain.Header
import TwinLedger.Chain.Transaction
import TwinLedger.Config.Chain
import TwinLedger.Config.Execution
import TwinLedger.Gas.Pool
import TwinLedger.World.Basic

/-!
# Executing messages

An executor applies one message to a world within the budget of a gas pool. It checks, in this
order, the nonce, the balance for the gas, the intrinsic gas, the balance for the value and the
pool; the first check that fails is the error, and then nothing has been written. A message that
passes is always included, even if its call halts: gas is paid either way.

There are two executors of different construction. `InPlace` writes to the world at once and
undoes a failed call; `Buffered` collects the writes and commits them if the call succeeds. Neither
looks at what may be kept beside a world, such as checkpoints that were laid before. Another
executor may, so an executor runs on states of any kind (`WorldState`).
-/

namespace TwinLedger

/-- The environment of a message. -/
structure BlockContext where
  /-- The sender of the transaction. -/
  origin : Address
  gasPrice : U256
  /-- Earns the fees. -/
  coinbase : Address
  number : U64
  timestamp : U64
  gasLimit : U64
  rules : Rules
  deriving DecidableEq

/-- The environment that a block gives to a message. -/
def BlockContext.ofHeader (message : Message) (header : Header) (coinbase : Address)
    (config : ChainConfig) : BlockContext where
  origin := message.sender
  gasPrice := message.gasPrice
  coinbase
  number := header.number
  timestamp := header.timestamp
  gasLimit := header.gasLimit
  rules := config.rules header.number

/-- Why a message cannot be included in a block. -/
inductive ExecutionError where
  /-- The nonce is ahead of that of the account. -/
  | nonceTooHigh (address : Address) (tx state : U64)
  /-- The nonce has been used. -/
  | nonceTooLow (address : Address) (tx state : U64)
  /-- The nonce of the account cannot rise. -/
  | nonceMax (address : Address) (nonce : U64)
  | insufficientBalanceForGas (address : Address) (available needed : U256)
  | insufficientBalanceForTransfer (address : Address) (available needed : U256)
  /-- The gas limit does not pay for what is due before execution. -/
  | intrinsicGas (available needed : U64)
  /-- The price of the gas is no 256-bit number, or the intrinsic gas no 64-bit number. -/
  | gasOverflow
  /-- The block has too little gas left. -/
  | gasLimitReached (shortage : PoolShortage)
  deriving DecidableEq

namespace ExecutionError

def message : ExecutionError → String
  | .nonceTooHigh a tx state =>
    "nonce too high: address " ++ a.checksum ++ ", tx: " ++ tx.decimal ++ " state: " ++
      state.decimal
  | .nonceTooLow a tx state =>
    "nonce too low: address " ++ a.checksum ++ ", tx: " ++ tx.decimal ++ " state: " ++
      state.decimal
  | .nonceMax a nonce =>
    "nonce has max value: address " ++ a.checksum ++ ", nonce: " ++ nonce.decimal
  | .insufficientBalanceForGas a available needed =>
    "insufficient funds for gas * price: address " ++ a.checksum ++ " have " ++
      available.decimal ++ " want " ++ needed.decimal
  | .insufficientBalanceForTransfer a available needed =>
    "insufficient balance for transfer: address " ++ a.checksum ++ " have " ++
      available.decimal ++ " want " ++ needed.decimal
  | .intrinsicGas available needed =>
    "intrinsic gas too low: have " ++ available.decimal ++ ", want " ++ needed.decimal
  | .gasOverflow => "gas uint64 overflow"
  | .gasLimitReached shortage => shortage.message

end ExecutionError

/-- What came of a message that was included. -/
structure ExecutionResult where
  /-- The output of the call, or the code of the new contract. -/
  returnData : Bytes
  /-- Gas that the sender pays for, the refund taken off. -/
  gasUsed : U64
  /-- Whether the call halted. -/
  failed : Bool
  deriving DecidableEq

/-- Why a call or creation failed. -/
inductive Halt where
  /-- The program asked for it; the gas left is kept. -/
  | revert
  /-- Out of gas, an invalid instruction, or a creation that cannot be; all gas is gone. -/
  | exceptional
  deriving DecidableEq

/-- How a call or creation ended: what it wrote to, the gas left, and the output or the reason
of the failure. -/
structure Frame (σ : Type) where
  store : σ
  gas : U64
  outcome : Except Halt Bytes

namespace Frame

variable {σ : Type}

/-- The end of a call that went well. -/
def success (store : σ) (gas : U64) (output : Bytes) : Frame σ := ⟨store, gas, .ok output⟩

/-- The end of a call that failed. -/
def failure (store : σ) (gas : U64) (halt : Halt) : Frame σ := ⟨store, gas, .error halt⟩

/-- The output, empty after a failure. -/
def output (f : Frame σ) : Bytes :=
  match f.outcome with
  | .ok data => data
  | .error _ => []

def failed (f : Frame σ) : Bool :=
  match f.outcome with
  | .ok _ => false
  | .error _ => true

end Frame

/-- What an executor leaves behind, in the states that it runs on. -/
structure Execution (σ : Type := World) where
  result : Except ExecutionError ExecutionResult
  world : σ
  pool : GasPool

/-- The capability of applying one message. -/
abbrev Executor (σ : Type := World) :=
  BlockContext → Message → σ → GasPool → Checked (Execution σ)

/-- An executor in each seat. -/
structure Executors (σ : Type := World) where
  reference : Executor σ
  alternate : Executor σ

def Executors.at {σ : Type} (e : Executors σ) : Seat → Executor σ
  | .reference => e.reference
  | .alternate => e.alternate

end TwinLedger
