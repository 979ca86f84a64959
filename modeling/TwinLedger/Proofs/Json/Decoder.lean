import Mathlib.Data.List.Nodup
import TwinLedger.Json.ChainForms
import TwinLedger.Proofs.Json.Document

/-!
# Decoding what was written

A decoder *reads* a form as a value if the document of the form has the shape that the decoder
expects and stands for the value (`Decoder.Reads`). Each kind of decoder reads the form that is
written for its values. Records are put together from their fields: the members of an object are
found by their names, so

> a record reads an object whose members are its fields in order (`Decoder.reads_recordFrom`), and
> what is read is found again in the text (`Decoder.Reads.parse?_pretty`).
-/

namespace TwinLedger

/-! ## Shapes -/

namespace Json

mutual

/-- Where nothing is expected, every value fits. -/
theorem fits_any : ∀ j : Json, j.Fits .any
  | .null | .bool _ | .natural _ | .string _ => by simp [Fits]
  | .array items => by simp [Fits, itemsFit_any items]
  | .object members => by simp [Fits, membersFit_any members]

theorem itemsFit_any : ∀ items : List Json, ItemsFit .any items
  | [] => by simp [ItemsFit]
  | item :: items => by
    rw [ItemsFit]
    exact ⟨fits_any item, itemsFit_any items⟩

theorem membersFit_any : ∀ members : List (String × Json), MembersFit .any members
  | [] => by simp [MembersFit]
  | (key, value) :: members => by
    rw [MembersFit]
    exact ⟨fits_any value, membersFit_any members⟩

end

theorem itemsFit_list {item : Shape} {items : List Json} (h : ∀ j ∈ items, j.Fits item) :
    ItemsFit (.list item) items := by
  induction items with
  | nil => simp [ItemsFit]
  | cons j items ih =>
    obtain ⟨hj, hitems⟩ := List.forall_mem_cons.1 h
    rw [ItemsFit]
    exact ⟨hj, ih hitems⟩

theorem membersFit_iff {shape : Shape} {members : List (String × Json)} :
    MembersFit shape members ↔ ∀ m ∈ members, m.2.Fits (shape.member (some m.1)) := by
  induction members with
  | nil => simp [MembersFit]
  | cons m members ih => rw [MembersFit, List.forall_mem_cons, ih]

end Json

/-! ## Decoders -/

/-- The form of a value is read as the value. -/
structure Decoder.Reads {α : Type} (decoder : Decoder α) (form : Json) (x : α) : Prop where
  fits : form.Fits decoder.shape
  decodes : decoder.decode? form.document = some x

namespace Decoder

variable {α : Type}

theorem Reads.parse?_pretty {decoder : Decoder α} {form : Json} {x : α}
    (h : decoder.Reads form x) : decoder.parse? form.pretty = some x := by
  rw [parse?, Document.parse?_pretty h.fits, Option.bind_some, h.decodes]

theorem Reads.map {β : Type} {decoder : Decoder α} {form : Json} {x : α} (f : α → β)
    (h : decoder.Reads form x) : (f <$> decoder).Reads form (f x) :=
  ⟨h.fits, congrArg (Option.map f) h.decodes⟩

/-! ## Numbers and text -/

theorem reads_u64 (w : U64) : u64.Reads w.form w := by
  refine ⟨trivial, ?_⟩
  show (some w.toNat).bind Word.ofNat? = some w
  exact Word.ofNat?_eq_some_iff.2 rfl

theorem reads_text (s : String) : text.Reads (.string s) s := ⟨trivial, rfl⟩

theorem reads_bool (b : Bool) : bool.Reads (.bool b) b := ⟨trivial, rfl⟩

theorem value?_digitChar : ∀ d < 16, Hex.value? d.digitChar = some d ∧ d.digitChar ≠ '_' := by
  decide

theorem digits_append_singleton {d : Nat} (hd : d < 16) (chars : List Char) (n : Nat) :
    digits 16 n (chars ++ [d.digitChar]) = (digits 16 n chars).map fun m => 16 * m + d := by
  obtain ⟨hvalue, hmark⟩ := value?_digitChar d hd
  induction chars generalizing n with
  | nil => simp [digits, hmark, hvalue, hd]
  | cons c rest ih =>
    rw [List.cons_append, digits, digits]
    split
    · exact ih n
    · split
      · next e =>
        split
        · exact ih _
        · rfl
      · rfl

/-- A number is read back from its digits. -/
theorem digits_toDigits (n : Nat) : digits 16 0 (Nat.toDigits 16 n) = some n := by
  induction n using Nat.strongRecOn with
  | ind n ih =>
    by_cases hsmall : n < 16
    · rw [Nat.toDigits_of_lt_base hsmall, ← List.nil_append [n.digitChar],
        digits_append_singleton hsmall]
      simp [digits]
    · rw [Nat.toDigits_of_base_le (by decide) (by omega),
        digits_append_singleton (Nat.mod_lt n (by decide)), ih (n / 16) (by omega), Option.map_some,
        Nat.div_add_mod]

theorem numeral_minimal (n : Nat) : numeral (Hex.minimal n).toList = some n := by
  have hchars : (Hex.minimal n).toList = '0' :: 'x' :: Nat.toDigits 16 n := by
    rw [Hex.minimal, String.toList_append, String.toList_ofList, String.toList_ofList]
    rfl
  rw [hchars]
  exact digits_toDigits n

theorem reads_u256 (w : U256) : u256.Reads w.hexForm w := by
  refine ⟨trivial, ?_⟩
  show (numeral (Hex.minimal w.toNat).toList).bind Word.ofNat? = some w
  rw [numeral_minimal]
  exact Word.ofNat?_eq_some_iff.2 rfl

/-! ## Bytes -/

theorem reads_bytes (b : Bytes) : bytes.Reads b.form b := ⟨trivial, Hex.ofString?_hex b⟩

theorem reads_fixed {size : Nat} (x : FixedBytes size) : (fixed size).Reads x.form x :=
  ⟨trivial, x.ofString?_hex⟩

/-! ## Lists and choices -/

theorem reads_list {decoder : Decoder α} {form : α → Json} (xs : List α)
    (h : ∀ x ∈ xs, decoder.Reads (form x) x) :
    decoder.list.Reads (.array (xs.map form)) xs := by
  constructor
  · rw [Json.Fits]
    refine ⟨nofun, Json.itemsFit_list fun j hj => ?_⟩
    obtain ⟨x, hx, rfl⟩ := List.mem_map.1 hj
    exact (h x hx).fits
  · show (Json.itemDocuments (xs.map form)).mapM decoder.decode? = some xs
    rw [Json.itemDocuments_eq]
    induction xs with
    | nil => rfl
    | cons x xs ih =>
      obtain ⟨hx, hxs⟩ := List.forall_mem_cons.1 h
      rw [List.map_cons, List.map_cons, List.mapM_cons, hx.decodes, ih hxs]
      rfl

theorem reads_named {values : List (String × α)} {name : String} {x : α}
    (h : values.lookup name = some x) : (named values).Reads (.string name) x := ⟨trivial, h⟩

end Decoder

/-! ## Records -/

/-- The members of an object are the fields of a record in order, and each fits its field. -/
abbrev Json.Aligned (shapes : List (String × Shape)) (members : List (String × Json)) : Prop :=
  List.Forall₂ (fun field m => field.1 = m.1 ∧ m.2.Fits field.2) shapes members

/-- The fields of a record are written as these members, and read as a value wherever these members
are found by their names. -/
structure Fields.Reads {α : Type} (fields : Fields α) (members : List (String × Json)) (x : α) :
    Prop where
  aligned : Json.Aligned fields.shapes members
  decodes : ∀ find : String → Option Document,
    (∀ m ∈ members, find m.1 = some m.2.document) → fields.decode? find = some x

namespace Fields

variable {α β : Type}

theorem reads_required {decoder : Decoder α} {form : Json} {x : α} (name : String)
    (h : decoder.Reads form x) : (required name decoder).Reads [(name, form)] x := by
  refine ⟨.cons ⟨rfl, h.fits⟩ .nil, fun find hfind => ?_⟩
  show (find name).bind decoder.decode? = some x
  rw [hfind _ List.mem_cons_self]
  exact h.decodes

theorem reads_optional {decoder : Decoder α} {form : α → Json} {x : Option α} (name : String)
    (hnull : decoder.decode? .null = none) (h : ∀ a, decoder.Reads (form a) a) :
    (optional name decoder).Reads [(name, .ofOption form x)] x := by
  have hread : decoder.option.decode? (Json.ofOption form x).document = some x := by
    cases x with
    | none => rfl
    | some a =>
      have hdecodes := (h a).decodes
      show decoder.option.decode? (form a).document = some (some a)
      generalize (form a).document = d at hdecodes
      cases d with
      | null =>
        rw [hnull] at hdecodes
        cases hdecodes
      | _ => exact congrArg (Option.map some) hdecodes
  refine ⟨.cons ⟨rfl, ?_⟩ .nil, fun find hfind => ?_⟩
  · cases x with
    | none => trivial
    | some a => exact (h a).fits
  · have hfound : find name = some (Json.ofOption form x).document := hfind _ List.mem_cons_self
    simp only [optional, hfound]
    exact hread

theorem Reads.map {fields : Fields α} {members : List (String × Json)} {x : α} (f : α → β)
    (h : fields.Reads members x) : (f <$> fields).Reads members (f x) := by
  refine ⟨h.aligned, fun find hfind => ?_⟩
  show (do let g ← some f; let y ← fields.decode? find; pure (g y)) = some (f x)
  rw [h.decodes find hfind]
  rfl

theorem Reads.seq {fields : Fields (α → β)} {fields' : Fields α}
    {members members' : List (String × Json)} {g : α → β} {x : α} (h : fields.Reads members g)
    (h' : fields'.Reads members' x) : (fields <*> fields').Reads (members ++ members') (g x) := by
  refine ⟨List.rel_append h.aligned h'.aligned, fun find hfind => ?_⟩
  show (do let g ← fields.decode? find; let y ← fields'.decode? find; pure (g y)) = some (g x)
  rw [h.decodes find fun m hm => hfind m (List.mem_append_left _ hm),
    h'.decodes find fun m hm => hfind m (List.mem_append_right _ hm)]
  rfl

end Fields

namespace Decoder

variable {α : Type}

theorem fits_of_aligned {shapes : List (String × Shape)} {members : List (String × Json)}
    (h : Json.Aligned shapes members) (hnodup : (members.map (·.1)).Nodup) :
    ∀ m ∈ members, m.2.Fits ((Shape.record shapes).member (some m.1)) := by
  induction h with
  | nil => exact nofun
  | @cons field m shapes members hfirst hrest ih =>
    obtain ⟨hname, hfits⟩ := hfirst
    rw [List.map_cons, List.nodup_cons] at hnodup
    intro m' hm'
    rcases List.mem_cons.1 hm' with rfl | hm'
    · have hthis : (some m'.1 == some field.1) = true := by rw [hname]; exact beq_self_eq_true _
      simp only [Shape.member, List.find?_cons, hthis]
      exact hfits
    · have hother : (some m'.1 == some field.1) = false := by
        refine beq_eq_false_iff_ne.2 fun heq => hnodup.1 (List.mem_map.2 ⟨m', hm', ?_⟩)
        exact (Option.some.inj heq).trans hname
      simp only [Shape.member, List.find?_cons, hother]
      exact ih hnodup.2 m' hm'

theorem find?_memberDocuments {members : List (String × Json)}
    (hnodup : (members.map (·.1)).Nodup) :
    ∀ m ∈ members, (Json.memberDocuments members).find? (·.1 == some m.1) =
      some (some m.1, m.2.document) := by
  rw [Json.memberDocuments_eq]
  induction members with
  | nil => exact nofun
  | cons first members ih =>
    rw [List.map_cons, List.nodup_cons] at hnodup
    intro m hm
    rcases List.mem_cons.1 hm with rfl | hm
    · simp only [List.map_cons, List.find?_cons, beq_self_eq_true]
    · have hother : (some first.1 == some m.1) = false := by
        refine beq_eq_false_iff_ne.2 fun heq => hnodup.1 (List.mem_map.2 ⟨m, hm, ?_⟩)
        exact (Option.some.inj heq).symm
      simp only [List.map_cons, List.find?_cons, hother]
      exact ih hnodup.2 m hm

/-- The members of an object are found by their names, if no name stands twice. -/
theorem lookup?_object {members : List (String × Json)} (hnodup : (members.map (·.1)).Nodup)
    (names : List String) (least : Nat) :
    ∃ find, lookup? names least (Json.object members).document = some find ∧
      ∀ m ∈ members, find m.1 = some m.2.document := by
  have hkeys : (Json.memberDocuments members).any (·.1.isNone) = false := by
    rw [Json.memberDocuments_eq, List.any_map]
    exact List.any_eq_false.2 fun m _ => Bool.false_ne_true
  have hcounts : names.any (fun name =>
      decide (1 < (Json.memberDocuments members).countP (·.1 == some name))) = false := by
    refine List.any_eq_false.2 fun name _ => ?_
    have hcount := List.nodup_iff_count_le_one.1 hnodup name
    have hsame : (Json.memberDocuments members).countP (·.1 == some name) =
        (members.map (·.1)).count name := by
      rw [Json.memberDocuments_eq, List.countP_map, List.count, List.countP_map]
      exact List.countP_congr fun m _ => by simp
    rw [hsame, decide_eq_true_iff]
    omega
  refine ⟨fun name => ((Json.memberDocuments members).find? (·.1 == some name)).map (·.2), ?_, ?_⟩
  · rw [Json.document, lookup?, if_neg (by rw [hkeys, hcounts]; exact Bool.false_ne_true)]
  · intro m hm
    simp only [find?_memberDocuments hnodup m hm, Option.map_some]

theorem map_fst_of_aligned {shapes : List (String × Shape)} {members : List (String × Json)}
    (h : Json.Aligned shapes members) : shapes.map (·.1) = members.map (·.1) := by
  induction h with
  | nil => rfl
  | cons hfirst hrest ih => rw [List.map_cons, List.map_cons, ih, hfirst.1]

/-- A record reads the object whose members are its fields, if no two fields have one name. -/
theorem reads_recordFrom {fields : Fields α} {members : List (String × Json)} {x : α} (least : Nat)
    (h : fields.Reads members x) (hnodup : fields.names.Nodup) :
    (recordFrom least fields).Reads (.object members) x := by
  have hnodup' : (members.map (·.1)).Nodup := map_fst_of_aligned h.aligned ▸ hnodup
  constructor
  · rw [Json.Fits]
    exact Json.membersFit_iff.2 (fits_of_aligned h.aligned hnodup')
  · obtain ⟨find, hlookup, hfind⟩ := lookup?_object hnodup' fields.names least
    show (lookup? fields.names least _).bind fields.decode? = some x
    rw [hlookup]
    exact h.decodes find hfind

theorem reads_record {fields : Fields α} {members : List (String × Json)} {x : α}
    (h : fields.Reads members x) (hnodup : fields.names.Nodup) :
    (record fields).Reads (.object members) x := reads_recordFrom _ h hnodup

theorem member_of_lookup {cases : List (String × Decoder α)} {name : String}
    {decoder : Decoder α} (h : cases.lookup name = some decoder) :
    (Shape.record (cases.map fun c => (c.1, c.2.shape))).member (some name) = decoder.shape := by
  induction cases with
  | nil => cases h
  | cons c cases ih =>
    have hkey : (some name == some c.1) = (name == c.1) := rfl
    simp only [Shape.member, List.map_cons, List.find?_cons, hkey] at ih ⊢
    rw [List.lookup_cons] at h
    cases hname : name == c.1 with
    | true =>
      rw [hname] at h
      cases h
      rfl
    | false =>
      rw [hname] at h
      exact ih h

/-- A choice with a value reads the object whose only member is the value under its name. -/
theorem reads_tagged {cases : List (String × Decoder α)} {name : String} {decoder : Decoder α}
    {form : Json} {x : α} (h : cases.lookup name = some decoder) (hx : decoder.Reads form x) :
    (tagged cases).Reads (.object [(name, form)]) x := by
  constructor
  · rw [Json.Fits]
    refine Json.membersFit_iff.2 (List.forall_mem_singleton.2 ?_)
    show form.Fits ((Shape.record _).member (some name))
    rw [member_of_lookup h]
    exact hx.fits
  · show (cases.lookup name).bind (·.decode? form.document) = some x
    rw [h]
    exact hx.decodes

end Decoder

end TwinLedger
