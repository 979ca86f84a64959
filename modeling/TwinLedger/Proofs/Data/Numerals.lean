import TwinLedger.Data.Bytes

/-!
# Numerals in base 256

A string of bytes writes a number, and every number has a numeral: one of a given length, which
keeps the number modulo the range of that length, and the shortest one, which keeps it as it is
and does not begin with zero. So bytes of a known length, or without a leading zero, are known by
the number that they write:

> reading the numeral of a number gives back the number, and writing the number that some bytes
> write gives back the bytes.

Strings of fixed size are parted from what follows them in the same sense: what is read in front of
a string is what was written there.
-/

namespace TwinLedger

theorem Word.range_add (a b : Nat) : Word.range (a + b) = Word.range a * Word.range b :=
  Nat.pow_add 2 a b

theorem Word.range_le_range {a b : Nat} (h : a ≤ b) : Word.range a ≤ Word.range b :=
  Nat.pow_le_pow_right Nat.two_pos h

theorem Word.two_pow_lt_range {i bits : Nat} (h : i < bits) : Nat.pow 2 i < Word.range bits :=
  Nat.pow_lt_pow_right Nat.one_lt_two h

/-- One more byte takes the range 256 times as far. -/
theorem Word.range_byte (n : Nat) : Word.range (8 * (n + 1)) = 256 * Word.range (8 * n) := by
  rw [Nat.mul_succ, Nat.add_comm, Word.range_add]
  rfl

namespace Bytes

/-! ## Reading a numeral -/

/-- Digits that follow move a number up by as many places. -/
theorem foldl_toNat (bytes : Bytes) (n : Nat) :
    bytes.foldl (fun n b => n * 256 + b.toNat) n =
      n * Word.range (8 * bytes.length) + toNat bytes := by
  induction bytes generalizing n with
  | nil => exact (Nat.mul_one n).symm
  | cons b rest ih =>
    rw [toNat, List.foldl_cons, List.foldl_cons, ih, ih, List.length_cons, Word.range_byte,
      Nat.add_mul, Nat.zero_mul, Nat.zero_add, Nat.mul_assoc, Nat.add_assoc]

theorem toNat_cons (b : UInt8) (rest : Bytes) :
    toNat (b :: rest) = b.toNat * Word.range (8 * rest.length) + toNat rest := by
  rw [toNat, List.foldl_cons, foldl_toNat, Nat.zero_mul, Nat.zero_add]

theorem toNat_lt (bytes : Bytes) : toNat bytes < Word.range (8 * bytes.length) := by
  induction bytes with
  | nil => exact Nat.one_pos
  | cons b rest ih =>
    have hdigit : b.toNat + 1 ≤ 256 := b.toNat_lt
    rw [toNat_cons, List.length_cons, Word.range_byte]
    calc b.toNat * Word.range (8 * rest.length) + toNat rest
        < b.toNat * Word.range (8 * rest.length) + Word.range (8 * rest.length) :=
          Nat.add_lt_add_left ih _
      _ = (b.toNat + 1) * Word.range (8 * rest.length) := (Nat.succ_mul _ _).symm
      _ ≤ 256 * Word.range (8 * rest.length) := Nat.mul_le_mul_right _ hdigit

/-- Numerals of one length that write the same number have the same digits. -/
theorem eq_of_toNat_eq {xs ys : Bytes} (hlength : xs.length = ys.length)
    (h : toNat xs = toNat ys) : xs = ys := by
  induction xs generalizing ys with
  | nil => exact (List.length_eq_zero_iff.1 hlength.symm).symm
  | cons x xs ih =>
    cases ys with
    | nil => cases hlength
    | cons y ys =>
      have htail : xs.length = ys.length := Nat.succ.inj hlength
      have hx := toNat_lt xs
      have hy := toNat_lt ys
      rw [toNat_cons, toNat_cons, ← htail] at h
      rw [← htail] at hy
      -- The first digit is the quotient by the range of the others, which are the remainder.
      have hfirst : x.toNat = y.toNat := by
        have hquot := congrArg (· / Word.range (8 * xs.length)) h
        simpa only [Nat.mul_comm _ (Word.range _), Nat.mul_add_div (Word.range_pos _),
          Nat.div_eq_of_lt hx, Nat.div_eq_of_lt hy, Nat.add_zero] using hquot
      have hrest : toNat xs = toNat ys := by
        rw [hfirst] at h
        exact Nat.add_left_cancel h
      rw [UInt8.toNat_inj.1 hfirst, ih htail hrest]

/-! ## Numerals of a given length -/

theorem toNat_bigEndian (size n : Nat) : toNat (bigEndian size n) = n % Word.range (8 * size) := by
  induction size with
  | zero => exact (Nat.mod_one n).symm
  | succ size ih =>
    have hdigit : (UInt8.ofNat (n >>> (8 * size))).toNat = n / Word.range (8 * size) % 256 := by
      rw [Nat.shiftRight_eq_div_pow]
      rfl
    rw [bigEndian, toNat_cons, length_bigEndian, ih, hdigit, Nat.mul_succ, Word.range_add,
      Nat.add_comm, Nat.mul_comm (_ % 256)]
    exact (Nat.mod_mul).symm

theorem bigEndian_toNat (bytes : Bytes) : bigEndian bytes.length bytes.toNat = bytes := by
  refine eq_of_toNat_eq (length_bigEndian _ _) ?_
  rw [toNat_bigEndian, Nat.mod_eq_of_lt (toNat_lt bytes)]

/-! ## The shortest numeral -/

theorem length_minimal (n : Nat) : (minimal n).length = width n := length_bigEndian _ _

theorem lt_range_width (n : Nat) : n < Word.range (8 * width n) := by
  unfold width
  split
  · next hzero => exact hzero ▸ Word.range_pos _
  · exact Nat.lt_of_lt_of_le Nat.lt_log2_self (Word.range_le_range (by omega))

/-- A number takes no more digits than any range that it lies in. -/
theorem width_le {n size : Nat} (h : n < Word.range (8 * size)) : width n ≤ size := by
  unfold width
  split
  · exact Nat.zero_le size
  · next hzero =>
    have hlog : n.log2 < 8 * size := (Nat.log2_lt hzero).2 h
    omega

theorem toNat_minimal (n : Nat) : toNat (minimal n) = n := by
  rw [minimal, toNat_bigEndian, Nat.mod_eq_of_lt (lt_range_width n)]

theorem minimal_inj {m n : Nat} : minimal m = minimal n ↔ m = n :=
  ⟨fun h => by rw [← toNat_minimal m, h, toNat_minimal], congrArg minimal⟩

/-- The shortest numeral does not begin with zero. -/
theorem head?_minimal (n : Nat) : (minimal n).head? ≠ some 0 := by
  intro hhead
  have hwidth : width n ≠ 0 := fun hw => by simp [minimal, hw, bigEndian] at hhead
  obtain ⟨size, hsize⟩ := Nat.exists_eq_succ_of_ne_zero hwidth
  have hlast : n < Word.range (8 * (size + 1)) := by
    rw [← Nat.succ_eq_add_one, ← hsize]
    exact lt_range_width n
  -- Without its first digit the number would have a shorter numeral.
  have hshort : n < Word.range (8 * size) := by
    rw [minimal, hsize, bigEndian, List.head?_cons, Option.some.injEq] at hhead
    have hdigit : n / Word.range (8 * size) % 256 = 0 := by
      have := congrArg UInt8.toNat hhead
      rwa [Nat.shiftRight_eq_div_pow] at this
    have hquot : n / Word.range (8 * size) < 256 := by
      refine Nat.div_lt_of_lt_mul ?_
      rwa [Nat.mul_succ, Word.range_add] at hlast
    rw [Nat.mod_eq_of_lt hquot] at hdigit
    exact (Nat.div_eq_zero_iff_lt (Word.range_pos _)).1 hdigit
  have := width_le hshort
  omega

/-- Digits without a leading zero are no more than their number needs. -/
theorem width_toNat {bytes : Bytes} (h : bytes.head? ≠ some 0) :
    width bytes.toNat = bytes.length := by
  apply Nat.le_antisymm (width_le (toNat_lt bytes))
  cases bytes with
  | nil => exact Nat.zero_le _
  | cons b rest =>
    have hdigit : 1 ≤ b.toNat := by
      rcases Nat.eq_zero_or_pos b.toNat with hzero | hpos
      · exact absurd (congrArg some (UInt8.toNat_inj.1 hzero)) h
      · exact hpos
    have hlow : Word.range (8 * rest.length) ≤ toNat (b :: rest) := by
      rw [toNat_cons]
      exact Nat.le_trans (Nat.le_mul_of_pos_left _ hdigit) (Nat.le_add_right _ _)
    rcases Nat.lt_or_ge rest.length (width (toNat (b :: rest))) with hlt | hge
    · exact hlt
    · have hup := Nat.lt_of_lt_of_le (lt_range_width (toNat (b :: rest)))
        (Word.range_le_range (Nat.mul_le_mul_left 8 hge))
      omega

/-- Digits without a leading zero are the shortest numeral of their number. -/
theorem minimal_toNat {bytes : Bytes} (h : bytes.head? ≠ some 0) :
    minimal bytes.toNat = bytes := by
  rw [minimal, width_toNat h, bigEndian_toNat]

/-! ## Parting a string -/

theorem length_of_split? {n : Nat} {bytes front back : Bytes}
    (h : split? n bytes = some (front, back)) : front.length + back.length = bytes.length := by
  obtain ⟨rfl, -⟩ := split?_eq_some h
  rw [List.length_append]

theorem split?_append (front back : Bytes) :
    split? front.length (front ++ back) = some (front, back) := by
  induction front with
  | nil => rfl
  | cons b rest ih => rw [List.length_cons, List.cons_append, split?, ih]; rfl

end Bytes

namespace FixedBytes

variable {size : Nat}

@[simp] theorem toNat_zero : (0 : FixedBytes size).toNat = 0 := Nat.zero_mod _

theorem toNat_wrap_of_lt {n : Nat} (h : n < Word.range (8 * size)) :
    (wrap n : FixedBytes size).toNat = n := Nat.mod_eq_of_lt h

theorem toNat_toBytes (x : FixedBytes size) : x.toBytes.toNat = x.toNat := by
  rw [toBytes, Bytes.toNat_bigEndian, Nat.mod_eq_of_lt x.isLt]

theorem toBytes_inj {x y : FixedBytes size} : x.toBytes = y.toBytes ↔ x = y :=
  ⟨fun h => FixedBytes.ext (by rw [← toNat_toBytes, h, toNat_toBytes]), congrArg toBytes⟩

theorem ofBytes_toBytes (x : FixedBytes size) : ofBytes x.toBytes = x := by
  apply FixedBytes.ext
  show x.toBytes.toNat % Word.range (8 * size) = x.toNat
  rw [toNat_toBytes, Nat.mod_eq_of_lt x.isLt]

theorem toBytes_ofBytes {bytes : Bytes} (h : bytes.length = size) :
    (ofBytes bytes : FixedBytes size).toBytes = bytes := by
  apply Bytes.eq_of_toNat_eq
  · rw [length_toBytes, h]
  · rw [toNat_toBytes]
    show bytes.toNat % Word.range (8 * size) = bytes.toNat
    rw [← h, Nat.mod_eq_of_lt (Bytes.toNat_lt bytes)]

/-! ## Strings of fixed size in front of others -/

theorem read?_eq_some_iff {bytes rest : Bytes} {x : FixedBytes size} :
    read? size bytes = some (x, rest) ↔ bytes = x.toBytes ++ rest := by
  constructor
  · intro h
    obtain ⟨⟨front, back⟩, hsplit, heq⟩ := Option.map_eq_some_iff.1 h
    obtain ⟨hbytes, hlength⟩ := Bytes.split?_eq_some hsplit
    cases heq
    rw [toBytes_ofBytes hlength, hbytes]
  · intro h
    have hsplit := Bytes.split?_append x.toBytes rest
    rw [length_toBytes] at hsplit
    rw [read?, h, hsplit, Option.map_some]
    show some (ofBytes x.toBytes, rest) = some (x, rest)
    rw [ofBytes_toBytes]

theorem readMany?_eq_some_iff {n : Nat} {bytes rest : Bytes} {xs : List (FixedBytes size)} :
    readMany? size n bytes = some (xs, rest) ↔
      xs.length = n ∧ bytes = xs.flatMap toBytes ++ rest := by
  induction n generalizing bytes xs with
  | zero =>
    rw [readMany?, Option.some.injEq, Prod.mk.injEq]
    constructor
    · rintro ⟨rfl, rfl⟩
      exact ⟨rfl, rfl⟩
    · rintro ⟨hlength, rfl⟩
      rw [List.length_eq_zero_iff.1 hlength]
      exact ⟨rfl, rfl⟩
  | succ n ih =>
    rw [readMany?]
    constructor
    · intro h
      split at h
      · cases h
      · next x back hread =>
        obtain ⟨⟨ys, back'⟩, hmany, heq⟩ := Option.map_eq_some_iff.1 h
        cases heq
        obtain ⟨hlength, hback⟩ := ih.1 hmany
        refine ⟨by rw [List.length_cons, hlength], ?_⟩
        rw [read?_eq_some_iff.1 hread, hback, List.flatMap_cons, List.append_assoc]
    · rintro ⟨hlength, hbytes⟩
      cases xs with
      | nil => cases hlength
      | cons x xs =>
        rw [List.flatMap_cons, List.append_assoc] at hbytes
        rw [read?_eq_some_iff.2 hbytes]
        dsimp only
        rw [ih.2 ⟨Nat.succ.inj hlength, rfl⟩]
        rfl

end FixedBytes

end TwinLedger
