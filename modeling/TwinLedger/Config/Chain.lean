import TwinLedger.Data.Bytes

/-!
# The configuration of a chain

At which block each fork becomes active. A fork without a block never does.
-/

namespace TwinLedger

/-- The one-time drain of some accounts into a contract. -/
structure DaoFork where
  block : U64
  /-- A chain that opposes the fork leaves the accounts alone. -/
  support : Bool
  /-- Receives all the balances. -/
  refundContract : Address
  drainList : List Address
  deriving DecidableEq

/-- The schedule of forks. -/
structure ChainConfig where
  /-- Enters the signed payload once EIP-155 is active. -/
  chainId : U64
  /-- Creating costs more, and a deposit that cannot be paid fails. -/
  homesteadBlock : Option U64 := none
  daoFork : Option DaoFork := none
  /-- Signatures may be bound to the chain. -/
  eip155Block : Option U64 := none
  /-- Empty accounts are deleted when touched, and code is limited in size. -/
  eip158Block : Option U64 := none
  /-- Receipts hold a status, and programs may revert. -/
  byzantiumBlock : Option U64 := none
  deriving DecidableEq

/-- Which forks are active at a block. -/
structure Rules where
  homestead : Bool := false
  eip155 : Bool := false
  eip158 : Bool := false
  byzantium : Bool := false
  deriving DecidableEq

namespace ChainConfig

/-- No fork, ever. -/
def frontier (chainId : U64) : ChainConfig := { chainId }

/-- Every fork but the drain, from the first block on. -/
def allForks (chainId : U64) : ChainConfig where
  chainId
  homesteadBlock := some 0
  eip155Block := some 0
  eip158Block := some 0
  byzantiumBlock := some 0

/-- Whether a fork is active at a block. -/
def isForked (fork : Option U64) (number : U64) : Bool := fork.any (· ≤ number)

def isHomestead (c : ChainConfig) (number : U64) : Bool := isForked c.homesteadBlock number

def isEip155 (c : ChainConfig) (number : U64) : Bool := isForked c.eip155Block number

def isEip158 (c : ChainConfig) (number : U64) : Bool := isForked c.eip158Block number

def isByzantium (c : ChainConfig) (number : U64) : Bool := isForked c.byzantiumBlock number

/-- The drain to be made at exactly this block. -/
def daoForkAt (c : ChainConfig) (number : U64) : Option DaoFork :=
  c.daoFork.filter fun dao => dao.support && dao.block == number

def isDaoForkBlock (c : ChainConfig) (number : U64) : Bool := (c.daoForkAt number).isSome

/-- The forks active at a block. -/
def rules (c : ChainConfig) (number : U64) : Rules where
  homestead := c.isHomestead number
  eip155 := c.isEip155 number
  eip158 := c.isEip158 number
  byzantium := c.isByzantium number

end ChainConfig

end TwinLedger
