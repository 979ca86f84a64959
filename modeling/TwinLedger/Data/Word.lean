/-!
# Words

Numbers of a fixed count of bits, held as a natural number with its bound. Gas, nonces and
block numbers are 64-bit words, balances and prices 256-bit words.

Three ways to calculate live side by side, and each use says which one it takes: `add?`, `sub?`
and `mul?` answer nothing where the result leaves the range, `satAdd`, `satSub` and `satMul` stop
at its ends, and `add`, `sub` and `mul` are for sums that the program believes to fit: leaving
the range is then an `Overflow`, which ends the whole computation.
-/

namespace TwinLedger

/-- How many numbers the given count of bits can write: two to that power. -/
def Word.range (bits : Nat) : Nat := Nat.pow 2 bits

theorem Word.range_pos (bits : Nat) : 0 < Word.range bits := Nat.two_pow_pos bits

/-- A natural number that the given count of bits can write. -/
@[ext] structure Word (bits : Nat) where
  toNat : Nat
  isLt : toNat < Word.range bits
  deriving DecidableEq

/-- Gas, nonces, block numbers, timestamps. -/
abbrev U64 := Word 64

/-- Balances, prices, transferred values. -/
abbrev U256 := Word 256

/-- A result left the range of its word where the program did not provide for it. -/
inductive Overflow where
  | overflow
  deriving DecidableEq, Repr

/-- Computations that an overflow ends. -/
abbrev Checked (α : Type) := Except Overflow α

/-- A computation that went on had a result to go on with. -/
theorem exists_of_bind {ε α β : Type} {x : Except ε α} {f : α → Except ε β} {b : β}
    (h : x >>= f = .ok b) : ∃ a, x = .ok a ∧ f a = .ok b := by
  cases x with
  | error e => cases h
  | ok a => exact ⟨a, rfl, h⟩

/-- A computation whose result passes a test has a result. -/
theorem exists_of_any {ε α : Type} {x : Except ε α} {p : α → Bool}
    (h : x.toOption.any p = true) : ∃ a, x = .ok a ∧ p a = true := by
  cases x with
  | error e => cases h
  | ok a => exact ⟨a, rfl, h⟩

namespace Word

variable {bits : Nat}

/-- The word of a number taken modulo the range. -/
def wrap (n : Nat) : Word bits := ⟨n % range bits, Nat.mod_lt _ (range_pos bits)⟩

/-- The word of a number that fits. -/
def ofNat? (n : Nat) : Option (Word bits) :=
  if h : n < range bits then some ⟨n, h⟩ else none

/-- The word nearest to a number. -/
def clamp (n : Nat) : Word bits :=
  if h : n < range bits then ⟨n, h⟩
  else ⟨range bits - 1, Nat.sub_lt (range_pos bits) Nat.one_pos⟩

/-- The word of a number that is expected to fit. -/
def checked (n : Nat) : Checked (Word bits) :=
  if h : n < range bits then .ok ⟨n, h⟩ else .error .overflow

instance (n : Nat) : OfNat (Word bits) n := ⟨wrap n⟩

instance : Inhabited (Word bits) := ⟨0⟩

instance : LT (Word bits) := ⟨fun a b => a.toNat < b.toNat⟩

instance : LE (Word bits) := ⟨fun a b => a.toNat ≤ b.toNat⟩

instance (a b : Word bits) : Decidable (a < b) := inferInstanceAs (Decidable (a.toNat < b.toNat))

instance (a b : Word bits) : Decidable (a ≤ b) := inferInstanceAs (Decidable (a.toNat ≤ b.toNat))

/-- The largest word. -/
def max : Word bits := ⟨range bits - 1, Nat.sub_lt (range_pos bits) Nat.one_pos⟩

/-- The smaller of two words. -/
def min (a b : Word bits) : Word bits := if a ≤ b then a else b

/-- Whole multiples of `n` in the word. -/
def div (a : Word bits) (n : Nat) : Word bits :=
  ⟨a.toNat / n, Nat.lt_of_le_of_lt (Nat.div_le_self _ _) a.isLt⟩

def mul? (a b : Word bits) : Option (Word bits) := ofNat? (a.toNat * b.toNat)

def sub? (a b : Word bits) : Option (Word bits) :=
  if b ≤ a then some ⟨a.toNat - b.toNat, Nat.lt_of_le_of_lt (Nat.sub_le _ _) a.isLt⟩ else none

def satAdd (a b : Word bits) : Word bits := clamp (a.toNat + b.toNat)

def satMul (a b : Word bits) : Word bits := clamp (a.toNat * b.toNat)

def satSub (a b : Word bits) : Word bits :=
  ⟨a.toNat - b.toNat, Nat.lt_of_le_of_lt (Nat.sub_le _ _) a.isLt⟩

def add (a b : Word bits) : Checked (Word bits) := checked (a.toNat + b.toNat)

def sub (a b : Word bits) : Checked (Word bits) :=
  if b ≤ a then .ok (a.satSub b) else .error .overflow

/-- A 64-bit word read as a 256-bit one. -/
def widen (a : U64) : U256 :=
  ⟨a.toNat, Nat.lt_trans a.isLt (by decide)⟩

/-- The decimal digits of the word. -/
def decimal (a : Word bits) : String := toString a.toNat

/-! ## What each operation does to the number -/

theorem toNat_inj {a b : Word bits} : a.toNat = b.toNat ↔ a = b :=
  ⟨Word.ext, congrArg _⟩

theorem le_iff {a b : Word bits} : a ≤ b ↔ a.toNat ≤ b.toNat := Iff.rfl

theorem lt_iff {a b : Word bits} : a < b ↔ a.toNat < b.toNat := Iff.rfl

@[simp] theorem toNat_wrap (n : Nat) : (wrap n : Word bits).toNat = n % range bits := rfl

@[simp] theorem toNat_ofNat (n : Nat) : (OfNat.ofNat n : Word bits).toNat = n % range bits := rfl

@[simp] theorem toNat_satSub (a b : Word bits) : (a.satSub b).toNat = a.toNat - b.toNat := rfl

@[simp] theorem toNat_div (a : Word bits) (n : Nat) : (a.div n).toNat = a.toNat / n := rfl

@[simp] theorem toNat_widen (a : U64) : a.widen.toNat = a.toNat := rfl

theorem toNat_min (a b : Word bits) : (a.min b).toNat = Min.min a.toNat b.toNat := by
  unfold min
  split
  · next hle =>
    have hle : a.toNat ≤ b.toNat := hle
    omega
  · next hlt =>
    have hlt : ¬ a.toNat ≤ b.toNat := hlt
    omega

theorem toNat_clamp (n : Nat) :
    (clamp n : Word bits).toNat = if n < range bits then n else range bits - 1 := by
  unfold clamp
  split <;> rfl

theorem clamp_toNat (a : Word bits) : clamp a.toNat = a := dif_pos a.isLt

theorem toNat_satAdd (a b : Word bits) :
    (a.satAdd b).toNat =
      if a.toNat + b.toNat < range bits then a.toNat + b.toNat else range bits - 1 := toNat_clamp _

theorem toNat_satAdd_of_lt {a b : Word bits} (h : a.toNat + b.toNat < range bits) :
    (a.satAdd b).toNat = a.toNat + b.toNat := by
  rw [toNat_satAdd, if_pos h]

theorem toNat_satMul (a b : Word bits) :
    (a.satMul b).toNat =
      if a.toNat * b.toNat < range bits then a.toNat * b.toNat else range bits - 1 := toNat_clamp _

theorem toNat_satMul_of_lt {a b : Word bits} (h : a.toNat * b.toNat < range bits) :
    (a.satMul b).toNat = a.toNat * b.toNat := by
  rw [toNat_satMul, if_pos h]

theorem checked_eq_ok_iff {n : Nat} {a : Word bits} : checked n = .ok a ↔ a.toNat = n := by
  unfold checked
  split
  · simp [← toNat_inj, eq_comm]
  · have := a.isLt
    simp
    omega

theorem ofNat?_eq_some_iff {n : Nat} {a : Word bits} : ofNat? n = some a ↔ a.toNat = n := by
  unfold ofNat?
  split
  · simp [← toNat_inj, eq_comm]
  · have := a.isLt
    simp
    omega

theorem ofNat?_eq_none_iff {n : Nat} : (ofNat? n : Option (Word bits)) = none ↔ range bits ≤ n := by
  unfold ofNat?
  split
  · next hlt => simp [hlt]
  · next hge => simpa using hge

/-! ## Laws -/

theorem add_of_lt {a b : Word bits} (h : a.toNat + b.toNat < range bits) :
    a.add b = .ok ⟨a.toNat + b.toNat, h⟩ := dif_pos h

theorem sub_of_le {a b : Word bits} (h : b ≤ a) : a.sub b = .ok (a.satSub b) := if_pos h

theorem sub?_eq_some_iff {a b c : Word bits} : a.sub? b = some c ↔ a.toNat = b.toNat + c.toNat := by
  unfold sub?
  split
  · next hle =>
    have hle : b.toNat ≤ a.toNat := hle
    simp only [Option.some.injEq, ← toNat_inj]
    omega
  · next hlt =>
    have hlt : ¬ b.toNat ≤ a.toNat := hlt
    simp only [reduceCtorEq, false_iff]
    omega

theorem sub?_eq_none_iff {a b : Word bits} : a.sub? b = none ↔ a < b := by
  unfold sub?
  split
  · next hle => exact iff_of_false (Option.some_ne_none _) (Nat.not_lt.2 hle)
  · next hlt => exact iff_of_true rfl (Nat.not_le.1 hlt)

theorem le_of_sub? {a b c : Word bits} (h : a.sub? b = some c) : c ≤ a := by
  have := sub?_eq_some_iff.1 h
  exact le_iff.2 (by omega)

/-- What can be paid can be paid with more, and the rest is larger by as much. -/
theorem exists_sub?_of_add {a a' b c : Word bits} {extra : Nat}
    (ha : a'.toNat = a.toNat + extra) (h : a.sub? b = some c) :
    ∃ c', a'.sub? b = some c' ∧ c'.toNat = c.toNat + extra := by
  have hsplit := sub?_eq_some_iff.1 h
  refine ⟨a'.satSub b, sub?_eq_some_iff.2 ?_, ?_⟩
  · rw [toNat_satSub]
    omega
  · rw [toNat_satSub]
    omega

theorem toNat_satAdd_eq_min (a b : Word bits) :
    (a.satAdd b).toNat = Min.min (a.toNat + b.toNat) (range bits - 1) := by
  rw [toNat_satAdd]
  split <;> omega

@[simp] theorem satAdd_zero (a : Word bits) : a.satAdd 0 = a := by
  apply toNat_inj.1
  have := a.isLt
  rw [toNat_satAdd, toNat_ofNat, Nat.zero_mod, if_pos (by omega)]
  rfl

theorem satAdd_assoc (a b c : Word bits) : (a.satAdd b).satAdd c = a.satAdd (b.satAdd c) := by
  apply toNat_inj.1
  simp only [toNat_satAdd_eq_min]
  omega

theorem satMul_comm (a b : Word bits) : a.satMul b = b.satMul a := by
  rw [satMul, satMul, Nat.mul_comm]

theorem mul?_comm (a b : Word bits) : a.mul? b = b.mul? a := by
  rw [mul?, mul?, Nat.mul_comm]

theorem min_comm (a b : Word bits) : a.min b = b.min a := by
  apply toNat_inj.1
  rw [toNat_min, toNat_min, Nat.min_comm]

theorem toNat_lt_max {a : Word bits} (h : a ≠ max) : a.toNat + 1 < range bits := by
  have hne : a.toNat ≠ range bits - 1 := fun he => h (toNat_inj.1 he)
  have := a.isLt
  omega

/-- Below the largest word, counting up by one stays in range. -/
theorem add_one_of_ne_max {a : Word bits} (h : a ≠ max) : a.add 1 = .ok (a.satAdd 1) := by
  have hlt := toNat_lt_max h
  have hone : (1 : Word bits).toNat = 1 := by
    show 1 % range bits = 1
    exact Nat.mod_eq_of_lt (by omega)
  apply checked_eq_ok_iff.2
  rw [toNat_satAdd, hone, if_pos hlt]

end Word

end TwinLedger
