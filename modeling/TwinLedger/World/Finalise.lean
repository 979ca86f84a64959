import TwinLedger.World.Basic

/-!
# Finalisation and the root

Finalising writes the pending accounts into the finalised layer, where under EIP-158 the empty
ones among them are deleted instead, and sets the refund counter to zero. The root is a hash over
the finalised accounts in the order of their addresses.
-/

namespace TwinLedger.World

/-- The finalised layer with one pending account written into it. -/
def settleAccount (deleteEmpty : Bool) (layer : SortedMap Address Account)
    (entry : Address × Account) : SortedMap Address Account :=
  if deleteEmpty && entry.2.isEmpty then layer.erase entry.1 else layer.insert entry.1 entry.2

def finalise (w : World) (deleteEmpty : Bool) : World :=
  { w with
    finalised := w.pending.entries.foldl (settleAccount deleteEmpty) w.finalised
    pending := .empty
    refund := 0 }

/-- The account of an address as the root commits to it. -/
def accountEncoding (entry : Address × Account) : Bytes :=
  Rlp.encodeList
    [.ofFixed entry.1, .ofWord entry.2.nonce, .ofWord entry.2.balance, .ofFixed entry.2.codeHash,
      .ofFixed entry.2.storageRoot]

/-- What the root of some accounts is the hash of. -/
def encoding (accounts : SortedMap Address Account) : Bytes :=
  accounts.entries.flatMap accountEncoding

/-- The commitment to the finalised accounts. -/
def root (w : World) : Hash := keccak256 (encoding w.finalised)

end TwinLedger.World
