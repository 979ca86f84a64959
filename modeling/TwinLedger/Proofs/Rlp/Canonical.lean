import TwinLedger.Proofs.Rlp

/-!
# Nothing but encodings is read

`Proofs.Rlp` shows that what is written is read. Here is the converse: what the strict reader takes
from the front of some bytes is an encoding, so no item has a second one. A header that is longer
than it need be, a length that begins with zero and a small byte with a header around it are all
refused. Together:

> the reader finds an item exactly in front of the encoding of that item, and leaves what stands
> behind it (`read?_eq_some_iff`).

The ledger encodes lists of numbers, strings and addresses (`Field`). Each of them has a payload
that can be told without the encoding, and a list of fields is read back as the list of the
payloads.
-/

namespace TwinLedger.Rlp

/-! ## Headers -/

/-- The header in front of a payload that was read is the one that is written for it. -/
theorem cons_eq_header_of_payload? (base : Nat) {code : Nat} {bytes payload back : Bytes}
    (hcode : code < 64) (h : payload? code bytes = some (payload, back)) :
    payload.length < Word.range 64 ∧
      UInt8.ofNat (base + code) :: bytes = header base payload.length ++ (payload ++ back) := by
  unfold payload? at h
  split at h
  · next hshort =>
    obtain ⟨hbytes, hlength⟩ := Bytes.split?_eq_some h
    rw [hlength]
    refine ⟨Nat.lt_trans hcode (by decide), ?_⟩
    rw [header, if_pos hshort, hbytes]
    rfl
  · next hlong =>
    split at h
    · cases h
    · next digits rest hdigits =>
      split at h
      · cases h
      · next hproper =>
        obtain ⟨hhead, hbig⟩ := not_or.1 hproper
        obtain ⟨hbytes, hwidth⟩ := Bytes.split?_eq_some hdigits
        obtain ⟨hrest, hlength⟩ := Bytes.split?_eq_some h
        have hcount : base + 55 + digits.length = base + code := by omega
        rw [hlength]
        constructor
        · exact Nat.lt_of_lt_of_le (Bytes.toNat_lt digits) (Word.range_le_range (by omega))
        · -- Digits without a leading zero are the shortest ones, and there are as many of them.
          rw [header, if_neg hbig, Bytes.width_toNat hhead, Bytes.minimal_toNat hhead, hcount,
            hbytes, hrest]
          rfl

theorem ofNat_base_add {base : Nat} {b : UInt8} (h : base ≤ b.toNat) :
    UInt8.ofNat (base + (b.toNat - base)) = b := by
  rw [Nat.add_sub_cancel' h, UInt8.ofNat_toNat]

theorem eq_encode_append_of_frame? {bytes payload back : Bytes}
    (h : frame? bytes = some (.string, payload, back)) :
    payload.length < Word.range 64 ∧ bytes = (Item.string payload).encode ++ back := by
  cases bytes with
  | nil => cases h
  | cons b rest =>
    have hb := b.toNat_lt
    rw [frame?] at h
    split at h
    · next hsmall =>
      cases h
      have halone : standsAlone [b] := decide_eq_true (UInt8.lt_iff_toNat_lt.2 hsmall)
      exact ⟨(by decide : 1 < Word.range 64), by rw [Item.encode, if_pos halone]; rfl⟩
    · next hlarge =>
      split at h
      · split at h
        · cases h
        · next found behind hpayload =>
          split at h
          · cases h
          · next halone =>
            cases h
            obtain ⟨hsize, heq⟩ := cons_eq_header_of_payload? 0x80 (by omega) hpayload
            rw [ofNat_base_add (by omega)] at heq
            exact ⟨hsize, by rw [heq, Item.encode, if_neg halone, List.append_assoc]⟩
      · obtain ⟨_, _, heq⟩ := Option.map_eq_some_iff.1 h
        cases heq

theorem eq_header_append_of_frame? {bytes payload back : Bytes}
    (h : frame? bytes = some (.list, payload, back)) :
    payload.length < Word.range 64 ∧
      bytes = header 0xc0 payload.length ++ (payload ++ back) := by
  cases bytes with
  | nil => cases h
  | cons b rest =>
    have hb := b.toNat_lt
    rw [frame?] at h
    split at h
    · cases h
    · split at h
      · split at h
        · cases h
        · split at h
          · cases h
          · cases h
      · obtain ⟨_, hpayload, heq⟩ := Option.map_eq_some_iff.1 h
        cases heq
        obtain ⟨hsize, heq⟩ := cons_eq_header_of_payload? 0xc0 (by omega) hpayload
        rw [ofNat_base_add (by omega)] at heq
        exact ⟨hsize, heq⟩

/-! ## Items -/

/-- Bytes that are read as some items are the encodings of these items. -/
theorem eq_encodes_of_readAll? {bytes : Bytes} {items : List Item}
    (h : readAll? bytes = some items) : bytes = encodes items := by
  fun_induction readAll? bytes generalizing items with
  | case1 =>
    cases h
    rfl
  | case2 => cases h
  | case3 bytes hne payload back hframe ihback =>
    obtain ⟨rest, hback, heq⟩ := Option.map_eq_some_iff.1 h
    cases heq
    rw [(eq_encode_append_of_frame? hframe).2, ihback hback, encodes]
  | case4 bytes hne payload back hframe found rest hback hitems ihpayload ihback =>
    -- The header was made for the payload, and the payload is the encodings of its items.
    cases h
    rw [(eq_header_append_of_frame? hframe).2, encodes, Item.encode, ← length_encodes,
      ← ihpayload hitems, ← ihback hback, List.append_assoc]
  | case5 => cases h

/-- Whether a header can tell the length of the payload, which takes at most eight digits. -/
def Item.Sized : Item → Prop
  | .string payload => payload.length < Word.range 64
  | .list items => sizes items < Word.range 64

/-- The first item, and what follows it. -/
def read? (bytes : Bytes) : Option (Item × Bytes) :=
  match frame? bytes with
  | none => none
  | some (.string, payload, back) => some (.string payload, back)
  | some (.list, payload, back) => (readAll? payload).map fun items => (.list items, back)

theorem eq_encode_append_of_read? {bytes back : Bytes} {item : Item}
    (h : read? bytes = some (item, back)) : item.Sized ∧ bytes = item.encode ++ back := by
  unfold read? at h
  split at h
  · cases h
  · next hframe =>
    cases h
    exact eq_encode_append_of_frame? hframe
  · next hframe =>
    obtain ⟨items, hitems, heq⟩ := Option.map_eq_some_iff.1 h
    cases heq
    obtain ⟨hsize, hbytes⟩ := eq_header_append_of_frame? hframe
    rw [eq_encodes_of_readAll? hitems] at hsize hbytes
    rw [length_encodes] at hsize hbytes
    exact ⟨hsize, by rw [hbytes, Item.encode, List.append_assoc]⟩

theorem read?_encode_append {item : Item} (h : item.Sized) (back : Bytes) :
    read? (item.encode ++ back) = some (item, back) := by
  cases item with
  | string payload => rw [read?, frame?_string back h]
  | list items =>
    have hitems : readAll? (encodes items) = some items :=
      readAll?_encodes items fun item hitem => Nat.lt_of_le_of_lt (size_le_sizes hitem) h
    rw [read?, frame?_list back h]
    dsimp only
    rw [hitems, Option.map_some]

/-- The reader takes an item exactly in front of its encoding. -/
theorem read?_eq_some_iff {bytes back : Bytes} {item : Item} :
    read? bytes = some (item, back) ↔ item.Sized ∧ bytes = item.encode ++ back :=
  ⟨eq_encode_append_of_read?, fun ⟨hsize, heq⟩ => heq ▸ read?_encode_append hsize back⟩

-- A header around a small byte, a long header for a short length, a length that begins with zero.
example : read? [0x81, 0x7f] = none ∧ read? [0xb8, 1, 0x80] = none ∧ read? [0xb9, 0, 56] = none :=
  ⟨rfl, rfl, rfl⟩

/-! ## Fields -/

/-- What stands in the lists that the ledger encodes. -/
inductive Field where
  | byte (n : Word 8)
  | word (n : U64)
  | longWord (n : U256)
  | bytes (content : Bytes)
  | address (a : Address)
  | hash (h : Hash)
  | signature (s : FixedBytes 64)
  /-- An address that may be absent. -/
  | recipient (a : Option Address)

namespace Field

/-- The item that is encoded. -/
def item : Field → Item
  | byte n => .ofWord n
  | word n => .ofWord n
  | longWord n => .ofWord n
  | bytes content => .string content
  | address a => .ofFixed a
  | hash h => .ofFixed h
  | signature s => .ofFixed s
  | recipient a => .ofAddress? a

/-- The bytes that the field is read back as. A number is its shortest numeral, which is that number
(`Bytes.toNat_minimal`) and does not begin with zero (`Bytes.head?_minimal`), so zero is the empty
string, as an absent address is. -/
def payload : Field → Bytes
  | byte n => Bytes.minimal n.toNat
  | word n => Bytes.minimal n.toNat
  | longWord n => Bytes.minimal n.toNat
  | bytes content => content
  | address a => a.toBytes
  | hash h => h.toBytes
  | signature s => s.toBytes
  | recipient (some a) => a.toBytes
  | recipient none => []

theorem item_eq (f : Field) : f.item = .string f.payload := by
  cases f with
  | recipient a =>
    cases a with
    | none => rfl
    | some a => rfl
  | _ => rfl

end Field

/-- A list of fields is read back as one list of their payloads, in order, and what stands behind it
is left. The length in its header is added up from the sizes of the fields, and it is the number of
bytes behind the header. And the reader is strict: it takes nothing that is not an encoding. -/
theorem fields_round_trip :
    (∀ (fields : List Field) (suffix : Bytes), sizes (fields.map Field.item) < Word.range 64 →
      read? (encodeList (fields.map Field.item) ++ suffix) =
        some (.list (fields.map fun f => .string f.payload), suffix)) ∧
    (∀ fields : List Field,
      encodeList (fields.map Field.item) =
        header 0xc0 (sizes (fields.map Field.item)) ++ encodes (fields.map Field.item) ∧
      sizes (fields.map Field.item) = (encodes (fields.map Field.item)).length) ∧
    ∀ (bytes back : Bytes) (item : Item), read? bytes = some (item, back) →
      bytes = item.encode ++ back := by
  refine ⟨?_, ?_, ?_⟩
  · intro fields suffix hsize
    have hpayloads : fields.map Field.item = fields.map fun f => .string f.payload :=
      List.map_congr_left fun f _ => f.item_eq
    have hsized : (Item.list (fields.map Field.item)).Sized := hsize
    rw [← hpayloads]
    exact read?_encode_append hsized suffix
  · intro fields
    exact ⟨by rw [encodeList, Item.encode], (length_encodes _).symm⟩
  · intro bytes back item h
    exact (eq_encode_append_of_read? h).2

/-- Fields of every kind: numbers on both sides of 0x80, strings on both sides of the long header,
an address that is there and one that is not. -/
def assortedFields : List Field :=
  [.byte 0, .byte 127, .word 128, .longWord 256, .bytes [0x7f], .bytes [0x80],
    .bytes (List.replicate 55 0), .bytes (List.replicate 56 0), .address 1, .hash 2, .signature 3,
    .recipient none, .recipient (some 4)]

theorem fields_round_trip_assorted :
    sizes (assortedFields.map Field.item) < Word.range 64 ∧
    read? (encodeList (assortedFields.map Field.item) ++ [0xc0]) =
      some (.list (assortedFields.map fun f => .string f.payload), [0xc0]) ∧
    encodeList (assortedFields.map Field.item) ++ [0xc0] =
      (Item.list (assortedFields.map fun f => .string f.payload)).encode ++ [0xc0] := by
  obtain ⟨hread, -, hstrict⟩ := fields_round_trip
  have hsize : sizes (assortedFields.map Field.item) < Word.range 64 := by decide +kernel
  have h := hread assortedFields [0xc0] hsize
  exact ⟨hsize, h, hstrict _ _ _ h⟩

end TwinLedger.Rlp
