import TwinLedger.Chain.Log
import TwinLedger.Hash.Keccak

/-!
# Bloom filters over logs

A filter is a set of bits. A string sets three of the 2048 bits, which its hash names; a log sets
those of its address and of each topic. A string whose bits are not all set is in no log.
-/

namespace TwinLedger

/-- 2048 bits, of which the lowest is the last bit of the last byte. -/
abbrev Bloom := FixedBytes 256

namespace Bloom

/-- The bits of two filters together. -/
def union (a b : Bloom) : Bloom := a.or b

/-- The three bits of a string: the first three pairs of bytes of its hash, eleven bits of
each. -/
def positions (input : Bytes) : List Nat :=
  let h := (keccak256 input).toNat
  [(h >>> 240) % 2048, (h >>> 224) % 2048, (h >>> 208) % 2048]

/-- The filter of one string. -/
def ofInput (input : Bytes) : Bloom :=
  (positions input).foldl (fun b i => b.union (.wrap (1 <<< i))) 0

/-- The filter with the bits of one more string. -/
def accrue (b : Bloom) (input : Bytes) : Bloom := b.union (ofInput input)

/-- Whether all bits of a string are set. -/
def mayContain (b : Bloom) (input : Bytes) : Bool := (positions input).all b.toNat.testBit

/-- The filter with the bits of one more log. -/
def accrueLog (b : Bloom) (l : Log) : Bloom :=
  l.topics.foldl (fun b t => b.accrue t.toBytes) (b.accrue l.address.toBytes)

/-- The filter of some logs. -/
def ofLogs (logs : List Log) : Bloom := logs.foldl accrueLog 0

end Bloom

end TwinLedger
