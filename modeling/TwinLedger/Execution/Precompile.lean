import TwinLedger.Data.Hex
import TwinLedger.Gas.Schedule
import TwinLedger.Hash.Ripemd
import TwinLedger.Hash.Sha2

/-!
# Precompiled contracts

Three contracts without code at fixed low addresses. Each is a function of its input with a price
that grows with the words of the input.
-/

namespace TwinLedger

inductive Precompile where
  | sha256
  | ripemd160
  | identity
  deriving DecidableEq

namespace Precompile

def address : Precompile → Address
  | .sha256 => 2
  | .ripemd160 => 3
  | .identity => 4

/-- The contract that lives at an address. -/
def at? (a : Address) : Option Precompile :=
  if a = 2 then some .sha256
  else if a = 3 then some .ripemd160
  else if a = 4 then some .identity
  else none

/-- The price of a call. -/
def gasCost (p : Precompile) (input : Bytes) : Checked U64 :=
  match p with
  | .sha256 => Gas.linear (.wrap Gas.sha256Base) (.wrap Gas.sha256Word) input.length
  | .ripemd160 => Gas.linear (.wrap Gas.ripemd160Base) (.wrap Gas.ripemd160Word) input.length
  | .identity => Gas.linear (.wrap Gas.identityBase) (.wrap Gas.identityWord) input.length

/-- The output of a call. A digest of twenty bytes has twelve zeros put in front. -/
def run (p : Precompile) (input : Bytes) : Bytes :=
  match p with
  | .sha256 => TwinLedger.sha256 input
  | .ripemd160 => List.replicate 12 0x00 ++ TwinLedger.ripemd160 input
  | .identity => input

end Precompile

end TwinLedger
