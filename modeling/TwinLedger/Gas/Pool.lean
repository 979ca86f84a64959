import TwinLedger.Data.Word

/-!
# The gas pool of a block

A block starts with as much gas as its limit. Each transaction buys its whole gas limit from the
pool before it is executed and gives back what it did not use.
-/

namespace TwinLedger

/-- The gas that the transactions of a block may still buy. -/
structure GasPool where
  gas : U64 := 0
  deriving DecidableEq

/-- A purchase asked for more than the pool holds. -/
structure PoolShortage where
  available : U64
  requested : U64
  deriving DecidableEq

def PoolShortage.message (s : PoolShortage) : String :=
  "gas limit reached: available " ++ s.available.decimal ++ ", requested " ++ s.requested.decimal

namespace GasPool

/-- The pool with gas given back; it never holds more than a word can say. -/
def add (p : GasPool) (amount : U64) : GasPool := ⟨p.gas.satAdd amount⟩

/-- The pool after a purchase. -/
def sub (p : GasPool) (amount : U64) : Except PoolShortage GasPool :=
  if p.gas < amount then .error ⟨p.gas, amount⟩ else .ok ⟨p.gas.satSub amount⟩

/-! ## What is in the pool -/

theorem toNat_sub {p q : GasPool} {amount : U64} (h : p.sub amount = .ok q) :
    amount.toNat ≤ p.gas.toNat ∧ q.gas.toNat = p.gas.toNat - amount.toNat := by
  unfold sub at h
  split at h
  · cases h
  · next hle =>
    cases h
    exact ⟨Nat.not_lt.1 hle, rfl⟩

theorem toNat_add {p : GasPool} {amount : U64}
    (h : p.gas.toNat + amount.toNat < Word.range 64) :
    (p.add amount).gas.toNat = p.gas.toNat + amount.toNat := Word.toNat_satAdd_of_lt h

end GasPool

end TwinLedger
