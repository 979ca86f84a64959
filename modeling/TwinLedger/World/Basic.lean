import TwinLedger.Chain.Log
import TwinLedger.World.Account

/-!
# The world

All accounts, in two layers: the finalised ones, and those pending since the last finalisation,
which hide the finalised ones of the same address. Every write goes to the pending layer, and an
account in it is *touched*, even where nothing about it changed. Beside the accounts the world
holds the logs of the block, the refund counter of the transaction, and the stamp for new logs.
-/

namespace TwinLedger

/-- The contents of the state. -/
structure World where
  finalised : SortedMap Address Account := .empty
  /-- Accounts written since the last finalisation. -/
  pending : SortedMap Address Account := .empty
  /-- The logs of the block in the order of emission. -/
  logs : List Log := []
  refund : U64 := 0
  stamp : Stamp := {}
  deriving DecidableEq

namespace World

/-! ## Reading -/

/-- The account of an address, from the pending layer first. -/
def account? (w : World) (a : Address) : Option Account :=
  (w.pending.get? a).or (w.finalised.get? a)

def exists? (w : World) (a : Address) : Bool := (w.account? a).isSome

/-- Whether the account is absent or empty. -/
def isEmpty (w : World) (a : Address) : Bool := (w.account? a).all Account.isEmpty

/-- The account of an address, one without anything where there is none. -/
def accountD (w : World) (a : Address) : Account := (w.account? a).getD {}

def balance (w : World) (a : Address) : U256 := (w.accountD a).balance

def nonce (w : World) (a : Address) : U64 := (w.accountD a).nonce

def code (w : World) (a : Address) : Bytes := (w.accountD a).code

def storage (w : World) (a : Address) (key : Hash) : Hash := (w.accountD a).slot key

/-- Both layers as one. -/
def accounts (w : World) : SortedMap Address Account := w.finalised.overlay w.pending

/-! ## Writing, each time touching the account -/

/-- Puts a finalised account, past the pending layer. -/
def insertFinalised (w : World) (a : Address) (account : Account) : World :=
  { w with finalised := w.finalised.insert a account }

/-- Replaces the account as a whole. -/
def setAccount (w : World) (a : Address) (account : Account) : World :=
  { w with pending := w.pending.insert a account }

/-- Changes the account, which is one without anything where there was none. -/
def modify (w : World) (a : Address) (f : Account → Account) : World :=
  w.setAccount a (f (w.accountD a))

/-- Takes the account into the pending layer as it is. -/
def touch (w : World) (a : Address) : World := w.modify a id

/-- A fresh account that keeps the balance of the one before. -/
def createAccount (w : World) (a : Address) : World :=
  w.setAccount a { balance := w.balance a }

def setBalance (w : World) (a : Address) (balance : U256) : World :=
  w.modify a fun account => { account with balance }

/-- Raises the balance, at most to the largest one. -/
def addBalance (w : World) (a : Address) (amount : U256) : World :=
  w.modify a fun account => { account with balance := account.balance.satAdd amount }

/-- Lowers the balance, at most to zero. -/
def subBalance (w : World) (a : Address) (amount : U256) : World :=
  w.modify a fun account => { account with balance := account.balance.satSub amount }

def setNonce (w : World) (a : Address) (nonce : U64) : World :=
  w.modify a fun account => { account with nonce }

def setCode (w : World) (a : Address) (code : Bytes) : World :=
  w.modify a fun account => { account with code }

def setStorage (w : World) (a : Address) (key value : Hash) : World :=
  w.modify a fun account => account.setSlot key value

/-! ## Refund, logs and stamp -/

def addRefund (w : World) (gas : U64) : World := { w with refund := w.refund.satAdd gas }

/-- Says which transaction the next logs belong to. -/
def prepare (w : World) (stamp : Stamp) : World := { w with stamp }

/-- Appends a log with the stamp and its position put on. -/
def addLog (w : World) (l : Log) : World :=
  { w with logs := w.logs ++ [l.stamped w.stamp (.wrap w.logs.length)] }

/-- The logs of one transaction in the order of emission. -/
def logsOf (w : World) (txHash : Hash) : List Log := w.logs.filter (·.txHash == txHash)

end World

end TwinLedger
