import TwinLedger.Proofs.Data.Numerals
import TwinLedger.Rlp

/-!
# Reading encodings back

A strict reader for encodings: it takes a header of the shortest form only, a length without a
leading zero and with the long header only where the short one cannot say it, and a single byte
below 0x80 only as itself. Every item shorter than two to the power of 64 is read back from its
encoding, and the reader stops where the encoding ends, whatever stands behind it:

> an encoding says by itself where it ends, so the encodings of some items, written one after the
> other without a count or a header around them, still tell the items.

What is encoded is mostly hashed then. A hash may lose what an encoding keeps, and where it does,
two encodings collide (`Collide`).
-/

namespace TwinLedger

/-- Two different strings with one hash. -/
def Collide (hash : Bytes → Hash) (x y : Bytes) : Prop := x ≠ y ∧ hash x = hash y

instance (hash : Bytes → Hash) (x y : Bytes) : Decidable (Collide hash x y) :=
  inferInstanceAs (Decidable (_ ∧ _))

/-- Strings with one hash are one string, or the hash does not tell them apart. -/
theorem eq_or_collide {hash : Bytes → Hash} {x y : Bytes} (h : hash x = hash y) :
    x = y ∨ Collide hash x y :=
  (Decidable.em (x = y)).imp id fun hne => ⟨hne, h⟩

namespace Rlp

/-! ## The reader -/

/-- What a header announces. -/
inductive Kind where
  | string
  | list
  deriving DecidableEq

/-- The payload behind the first byte of a header, and what follows the payload. The code is the
first byte counted from its base: a length below 56, or 55 more than the count of digits of a
longer one. -/
def payload? (code : Nat) (bytes : Bytes) : Option (Bytes × Bytes) :=
  if code < 56 then Bytes.split? code bytes
  else
    match Bytes.split? (code - 55) bytes with
    | none => none
    | some (digits, rest) =>
      if digits.head? = some 0 ∨ digits.toNat < 56 then none
      else Bytes.split? digits.toNat rest

/-- The kind and the payload of the first encoding, and what follows it. -/
def frame? : Bytes → Option (Kind × Bytes × Bytes)
  | [] => none
  | b :: rest =>
    if b.toNat < 0x80 then some (.string, [b], rest)
    else if b.toNat < 0xc0 then
      match payload? (b.toNat - 0x80) rest with
      | none => none
      | some (payload, back) => if standsAlone payload then none else some (.string, payload, back)
    else (payload? (b.toNat - 0xc0) rest).map fun (payload, back) => (.list, payload, back)

theorem length_of_payload? {code : Nat} {bytes payload back : Bytes}
    (h : payload? code bytes = some (payload, back)) :
    payload.length + back.length ≤ bytes.length := by
  unfold payload? at h
  split at h
  · exact Nat.le_of_eq (Bytes.length_of_split? h)
  · split at h
    · cases h
    · next digits rest hdigits =>
      split at h
      · cases h
      · have hrest := Bytes.length_of_split? hdigits
        have hpayload := Bytes.length_of_split? h
        omega

theorem length_of_frame? {kind : Kind} {bytes payload back : Bytes}
    (h : frame? bytes = some (kind, payload, back)) :
    back.length < bytes.length ∧ (kind = .list → payload.length < bytes.length) := by
  cases bytes with
  | nil => cases h
  | cons b rest =>
    rw [frame?] at h
    rw [List.length_cons]
    split at h
    · cases h
      exact ⟨Nat.lt_succ_self _, fun hkind => by cases hkind⟩
    · split at h
      · split at h
        · cases h
        · next hpayload =>
          have := length_of_payload? hpayload
          split at h
          · cases h
          · cases h
            exact ⟨by omega, fun hkind => by cases hkind⟩
      · obtain ⟨_, hpayload, heq⟩ := Option.map_eq_some_iff.1 h
        cases heq
        have := length_of_payload? hpayload
        exact ⟨by omega, fun _ => by omega⟩

/-- The items that are encoded one after the other. -/
def readAll? (bytes : Bytes) : Option (List Item) :=
  if bytes = [] then some []
  else
    match _ : frame? bytes with
    | none => none
    | some (.string, payload, back) => (readAll? back).map (.string payload :: ·)
    | some (.list, payload, back) =>
      match readAll? payload, readAll? back with
      | some items, some rest => some (.list items :: rest)
      | _, _ => none
termination_by bytes.length
decreasing_by
  · exact (length_of_frame? ‹_›).1
  · exact (length_of_frame? ‹_›).2 rfl
  · exact (length_of_frame? ‹_›).1

theorem readAll?_nil : readAll? [] = some [] := by rw [readAll?, if_pos rfl]

theorem readAll?_of_string {bytes payload back : Bytes} {rest : List Item}
    (hframe : frame? bytes = some (.string, payload, back)) (hback : readAll? back = some rest) :
    readAll? bytes = some (.string payload :: rest) := by
  have hne : bytes ≠ [] := fun hnil => by rw [hnil] at hframe; cases hframe
  rw [readAll?, if_neg hne]
  split
  · next h => rw [hframe] at h; cases h
  · next h =>
    rw [hframe] at h
    cases h
    rw [hback, Option.map_some]
  · next h => rw [hframe] at h; cases h

theorem readAll?_of_list {bytes payload back : Bytes} {items rest : List Item}
    (hframe : frame? bytes = some (.list, payload, back)) (hitems : readAll? payload = some items)
    (hback : readAll? back = some rest) :
    readAll? bytes = some (.list items :: rest) := by
  have hne : bytes ≠ [] := fun hnil => by rw [hnil] at hframe; cases hframe
  rw [readAll?, if_neg hne]
  split
  · next h => rw [hframe] at h; cases h
  · next h => rw [hframe] at h; cases h
  · next h =>
    rw [hframe] at h
    cases h
    rw [hitems, hback]

/-! ## The sizes that headers are made from -/

/-- Only a single byte below 0x80 is its own encoding. -/
theorem exists_byte_of_standsAlone {payload : Bytes} (h : standsAlone payload) :
    ∃ b : UInt8, payload = [b] ∧ b.toNat < 0x80 := by
  unfold standsAlone at h
  split at h
  · next b => exact ⟨b, rfl, UInt8.lt_iff_toNat_lt.1 (of_decide_eq_true h)⟩
  · cases h

theorem length_header (base length : Nat) : (header base length).length = headerSize length := by
  unfold header headerSize
  split
  · rfl
  · rw [List.length_cons, Bytes.length_minimal, Nat.add_comm]

mutual

theorem length_encode : (item : Item) → item.encode.length = item.size
  | .string payload => by
    unfold Item.encode Item.size
    split
    · next halone =>
      obtain ⟨b, rfl, -⟩ := exists_byte_of_standsAlone halone
      rfl
    · rw [List.length_append, length_header]
  | .list items => by
    rw [Item.encode, Item.size, List.length_append, length_header, length_encodes items]

theorem length_encodes : (items : List Item) → (encodes items).length = sizes items
  | [] => rfl
  | item :: rest => by
    rw [encodes, sizes, List.length_append, length_encode item, length_encodes rest]

end

theorem size_le_sizes {item : Item} {items : List Item} (h : item ∈ items) :
    item.size ≤ sizes items := by
  induction items with
  | nil => cases h
  | cons first rest ih =>
    rw [sizes]
    rcases List.mem_cons.1 h with rfl | h
    · omega
    · have := ih h
      omega

theorem length_le_size (payload : Bytes) : payload.length ≤ (Item.string payload).size := by
  unfold Item.size
  split
  · next halone =>
    obtain ⟨b, rfl, -⟩ := exists_byte_of_standsAlone halone
    exact Nat.le_refl 1
  · omega

/-! ## Bounds for sizes -/

theorem size_string_le {payload : Bytes} (h : payload.length < 56) :
    (Item.string payload).size ≤ payload.length + 1 := by
  rw [Item.size, headerSize, if_pos h]
  split <;> omega

/-- The longest header has nine bytes. -/
theorem headerSize_le {length : Nat} (h : length < Word.range 64) : headerSize length ≤ 9 := by
  have hwidth : Bytes.width length ≤ 8 := Bytes.width_le h
  unfold headerSize
  split <;> omega

theorem size_string_le_add {payload : Bytes} (h : payload.length < Word.range 64) :
    (Item.string payload).size ≤ payload.length + 9 := by
  have hheader := headerSize_le h
  rw [Item.size]
  split <;> omega

/-- A number takes one byte for the header and the digits of a range that it lies in. -/
theorem size_ofNat_le {n : Nat} (digits : Nat) (h : n < Word.range (8 * digits))
    (hshort : digits < 56) : (Item.ofNat n).size ≤ digits + 1 := by
  have hlength : (Bytes.minimal n).length ≤ digits := Bytes.length_minimal n ▸ Bytes.width_le h
  exact Nat.le_trans (size_string_le (by omega)) (Nat.succ_le_succ hlength)

theorem size_ofFixed_le {size : Nat} (x : FixedBytes size) (hshort : size < 56) :
    (Item.ofFixed x).size ≤ size + 1 := by
  have hlength : x.toBytes.length = size := x.length_toBytes
  exact Nat.le_trans (size_string_le (by omega)) (Nat.succ_le_succ (Nat.le_of_eq hlength))

theorem size_list_le {items : List Item} (h : sizes items < Word.range 64) :
    (Item.list items).size ≤ sizes items + 9 := by
  have hheader := headerSize_le h
  rw [Item.size]
  omega

/-! ## What is written is read -/

/-- Behind the first byte of a header the reader finds the payload the header was made for, and
leaves what follows. -/
theorem payload?_header (base : Nat) {payload : Bytes} (back : Bytes)
    (hsize : payload.length < Word.range 64) :
    ∃ code rest, code < 64 ∧ payload? code rest = some (payload, back) ∧
      header base payload.length ++ (payload ++ back) = UInt8.ofNat (base + code) :: rest := by
  unfold header
  split
  · next hshort =>
    refine ⟨payload.length, payload ++ back, by omega, ?_, rfl⟩
    rw [payload?, if_pos hshort, Bytes.split?_append]
  · next hlong =>
    have hwidth : Bytes.width payload.length ≤ 8 := Bytes.width_le hsize
    have hpos : Bytes.width payload.length ≠ 0 := by
      rw [Bytes.width, if_neg (by omega)]
      omega
    refine ⟨55 + Bytes.width payload.length, Bytes.minimal payload.length ++ (payload ++ back),
      by omega, ?_, by rw [List.cons_append, Nat.add_assoc]⟩
    have hdigits := Bytes.split?_append (Bytes.minimal payload.length) (payload ++ back)
    rw [Bytes.length_minimal] at hdigits
    rw [payload?, if_neg (by omega), Nat.add_sub_cancel_left, hdigits]
    dsimp only
    rw [Bytes.toNat_minimal,
      if_neg (not_or.2 ⟨Bytes.head?_minimal payload.length, hlong⟩), Bytes.split?_append]

theorem toNat_ofNat_code {base code : Nat} (hbase : base ≤ 0xc0) (hcode : code < 64) :
    (UInt8.ofNat (base + code)).toNat = base + code := by
  rw [UInt8.toNat_ofNat']
  exact Nat.mod_eq_of_lt (by omega)

theorem frame?_string {payload : Bytes} (back : Bytes) (hsize : payload.length < Word.range 64) :
    frame? ((Item.string payload).encode ++ back) = some (.string, payload, back) := by
  unfold Item.encode
  split
  · next halone =>
    obtain ⟨b, rfl, hb⟩ := exists_byte_of_standsAlone halone
    rw [List.cons_append, List.nil_append, frame?, if_pos hb]
  · next halone =>
    obtain ⟨code, rest, hcode, hpayload, heq⟩ := payload?_header 0x80 back hsize
    have hfirst : (UInt8.ofNat (0x80 + code)).toNat = 0x80 + code :=
      toNat_ofNat_code (by omega) hcode
    rw [List.append_assoc, heq, frame?, hfirst, if_neg (by omega), if_pos (by omega),
      Nat.add_sub_cancel_left, hpayload]
    dsimp only
    rw [if_neg halone]

theorem frame?_list {items : List Item} (back : Bytes) (hsize : sizes items < Word.range 64) :
    frame? ((Item.list items).encode ++ back) = some (.list, encodes items, back) := by
  rw [← length_encodes] at hsize
  obtain ⟨code, rest, hcode, hpayload, heq⟩ := payload?_header 0xc0 back hsize
  have hfirst : (UInt8.ofNat (0xc0 + code)).toNat = 0xc0 + code :=
    toNat_ofNat_code (by omega) hcode
  rw [Item.encode, ← length_encodes, List.append_assoc, heq, frame?, hfirst, if_neg (by omega),
    if_neg (by omega), Nat.add_sub_cancel_left, hpayload]
  rfl

/-- The encodings of items give back the items. -/
theorem readAll?_encodes : (items : List Item) → (∀ item ∈ items, item.size < Word.range 64) →
    readAll? (encodes items) = some items
  | [], _ => readAll?_nil
  | .string payload :: rest, hsize => by
    have hpayload : payload.length < Word.range 64 :=
      Nat.lt_of_le_of_lt (length_le_size payload) (hsize _ List.mem_cons_self)
    exact readAll?_of_string (frame?_string (encodes rest) hpayload)
      (readAll?_encodes rest fun item hitem => hsize item (List.mem_cons_of_mem _ hitem))
  | .list items :: rest, hsize => by
    have hitems : sizes items < Word.range 64 := by
      have := hsize _ List.mem_cons_self
      rw [Item.size] at this
      omega
    exact readAll?_of_list (frame?_list (encodes rest) hitems)
      (readAll?_encodes items fun item hitem => Nat.lt_of_le_of_lt (size_le_sizes hitem) hitems)
      (readAll?_encodes rest fun item hitem => hsize item (List.mem_cons_of_mem _ hitem))

/-- Items whose encodings, one after the other, are the same bytes are the same items. -/
theorem encodes_inj {xs ys : List Item} (hxs : ∀ item ∈ xs, item.size < Word.range 64)
    (hys : ∀ item ∈ ys, item.size < Word.range 64) (h : encodes xs = encodes ys) : xs = ys := by
  have hread := readAll?_encodes xs hxs
  rw [h, readAll?_encodes ys hys] at hread
  exact (Option.some.inj hread).symm

/-- One list of items is known by its encoding. -/
theorem encodeList_inj {xs ys : List Item} (hshort : (encodeList xs).length < Word.range 64)
    (h : encodeList xs = encodeList ys) : xs = ys := by
  have hsize : ∀ items, encodeList xs = encodeList items →
      ∀ item ∈ [Item.list items], item.size < Word.range 64 := by
    intro items heq item hitem
    rw [List.mem_singleton.1 hitem, ← length_encode]
    show (encodeList items).length < Word.range 64
    rwa [← heq]
  have hencodes : encodes [Item.list xs] = encodes [Item.list ys] := by
    show encodeList xs ++ [] = encodeList ys ++ []
    rw [h]
  have hlists := encodes_inj (hsize xs rfl) (hsize ys h) hencodes
  exact Item.list.inj (List.singleton_inj.1 hlists)

/-! ## Items of numbers and of strings -/

theorem ofWord_inj {bits : Nat} {v w : Word bits} : Item.ofWord v = Item.ofWord w ↔ v = w := by
  rw [Item.ofWord, Item.ofWord, Item.ofNat, Item.ofNat, Item.string.injEq, Bytes.minimal_inj,
    Word.toNat_inj]

theorem ofFixed_inj {size : Nat} {x y : FixedBytes size} :
    Item.ofFixed x = Item.ofFixed y ↔ x = y := by
  rw [Item.ofFixed, Item.ofFixed, Item.string.injEq, FixedBytes.toBytes_inj]

/-! ## Lists of lists -/

theorem encodes_lists (lists : List (List Item)) :
    encodes (lists.map .list) = lists.flatMap encodeList := by
  induction lists with
  | nil => rfl
  | cons items rest ih => rw [List.map_cons, encodes, ih, List.flatMap_cons, encodeList]

/-- Lists of items that are written one after the other, without anything around them. -/
theorem flatMap_encodeList_inj {xs ys : List (List Item)}
    (hxs : ∀ items ∈ xs, (Item.list items).size < Word.range 64)
    (hys : ∀ items ∈ ys, (Item.list items).size < Word.range 64)
    (h : xs.flatMap encodeList = ys.flatMap encodeList) : xs = ys := by
  rw [← encodes_lists, ← encodes_lists] at h
  have hlists : xs.map Item.list = ys.map Item.list :=
    encodes_inj (List.forall_mem_map.2 hxs) (List.forall_mem_map.2 hys) h
  exact (List.map_inj_right fun _ _ => Item.list.inj).1 hlists

end Rlp

end TwinLedger
