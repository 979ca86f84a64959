import TwinLedger.World.Basic

/-!
# Write sets

A write set collects writes beside a world that stays as it is. For every account it has touched
it holds an overlay, which says what is to become of each part of the account: balance, nonce,
code and single slots where they were written, and whether the account starts afresh, without the
nonce, code and storage it may have had. Reading goes through the overlay to the world beneath.

Committing writes every overlay onto its account, then appends the logs and adds the refund.
-/

namespace TwinLedger

/-- What is to become of an account. -/
structure Overlay where
  /-- Whether only the balance of the account before is kept. -/
  fresh : Bool := false
  balance : Option U256 := none
  nonce : Option U64 := none
  code : Option Bytes := none
  /-- The slots written, also with zero. -/
  slots : SortedMap Hash Hash := .empty
  deriving DecidableEq

/-- The account after the writes. -/
def Overlay.onto (o : Overlay) (account : Account) : Account where
  nonce := o.nonce.getD (if o.fresh then 0 else account.nonce)
  balance := o.balance.getD account.balance
  code := o.code.getD (if o.fresh then [] else account.code)
  storage := o.slots.entries.foldl (fun storage e => Account.write storage e.1 e.2)
    (if o.fresh then .empty else account.storage)

/-- Writes that have not reached the world. -/
structure WriteSet where
  overlays : SortedMap Address Overlay := .empty
  /-- New logs in the order of emission, not yet stamped. -/
  logs : List Log := []
  refund : U64 := 0
  deriving DecidableEq

namespace WriteSet

/-- The overlay of an account, one that changes nothing where there is none. -/
def overlay (ws : WriteSet) (a : Address) : Overlay := (ws.overlays.get? a).getD {}

/-! ## Reading through to the world beneath -/

def exists? (ws : WriteSet) (base : World) (a : Address) : Bool :=
  ws.overlays.contains a || base.exists? a

def balance (ws : WriteSet) (base : World) (a : Address) : U256 :=
  (ws.overlay a).balance.getD (base.balance a)

def nonce (ws : WriteSet) (base : World) (a : Address) : U64 :=
  (ws.overlay a).nonce.getD (if (ws.overlay a).fresh then 0 else base.nonce a)

def code (ws : WriteSet) (base : World) (a : Address) : Bytes :=
  (ws.overlay a).code.getD (if (ws.overlay a).fresh then [] else base.code a)

def storage (ws : WriteSet) (base : World) (a : Address) (key : Hash) : Hash :=
  ((ws.overlay a).slots.get? key).getD (if (ws.overlay a).fresh then 0 else base.storage a key)

/-! ## Writing -/

def modify (ws : WriteSet) (a : Address) (f : Overlay → Overlay) : WriteSet :=
  { ws with overlays := ws.overlays.insert a (f (ws.overlay a)) }

/-- Starts the account afresh: only a balance written before stays. -/
def createAccount (ws : WriteSet) (a : Address) : WriteSet :=
  ws.modify a fun o => { fresh := true, balance := o.balance }

def setBalance (ws : WriteSet) (a : Address) (balance : U256) : WriteSet :=
  ws.modify a fun o => { o with balance := some balance }

/-- Moves a value, touching both accounts even where it is zero. -/
def transfer (ws : WriteSet) (base : World) (source target : Address) (value : U256) : WriteSet :=
  let taken := ws.setBalance source ((ws.balance base source).satSub value)
  taken.setBalance target ((taken.balance base target).satAdd value)

def setNonce (ws : WriteSet) (a : Address) (nonce : U64) : WriteSet :=
  ws.modify a fun o => { o with nonce := some nonce }

def setCode (ws : WriteSet) (a : Address) (code : Bytes) : WriteSet :=
  ws.modify a fun o => { o with code := some code }

def setStorage (ws : WriteSet) (a : Address) (key value : Hash) : WriteSet :=
  ws.modify a fun o => { o with slots := o.slots.insert key value }

def addLog (ws : WriteSet) (l : Log) : WriteSet := { ws with logs := ws.logs ++ [l] }

def addRefund (ws : WriteSet) (gas : U64) : WriteSet := { ws with refund := ws.refund.satAdd gas }

/-! ## Committing -/

/-- Writes everything to the world. -/
def commit (ws : WriteSet) (w : World) : World :=
  let accounts := ws.overlays.entries.foldl (fun w e => w.modify e.1 e.2.onto) w
  (ws.logs.foldl World.addLog accounts).addRefund ws.refund

end WriteSet

end TwinLedger
