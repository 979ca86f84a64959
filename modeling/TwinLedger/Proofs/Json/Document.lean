import TwinLedger.Json.Document
import TwinLedger.Proofs.Json.Lexeme

/-!
# Reading what was written

The indented text of a value is read as the document of the value (`Json.document`), whatever shape
is expected, as long as no array stands where a string of fixed size is expected (`Json.Fits`):

> `parse?_pretty`: what is read from the text of a value is its document.

Values, items and members call each other with less and less fuel, so all three are read back
together, by induction on the fuel (`ReadsBack`): a text that is not longer than the fuel is read
to its end, because every step down goes past a bracket or a comma. What is behind a value is a
comma, a line end or nothing, which is what ends a number.
-/

namespace TwinLedger

open Lexeme Document

namespace Json

mutual

/-- What the text of a value is read as. -/
def document : Json → Document
  | .null => .null
  | .bool b => .bool b
  | .natural n => .natural n
  | .string s => .text (some s)
  | .array items => .array (itemDocuments items)
  | .object members => .object (memberDocuments members)

def itemDocuments : List Json → List Document
  | [] => []
  | item :: rest => item.document :: itemDocuments rest

def memberDocuments : List (String × Json) → List (Option String × Document)
  | [] => []
  | (key, value) :: rest => (some key, value.document) :: memberDocuments rest

end

theorem itemDocuments_eq (items : List Json) : itemDocuments items = items.map document := by
  induction items with
  | nil => rw [itemDocuments]; rfl
  | cons item items ih => rw [itemDocuments, ih]; rfl

theorem memberDocuments_eq (members : List (String × Json)) :
    memberDocuments members = members.map fun m => (some m.1, m.2.document) := by
  induction members with
  | nil => rw [memberDocuments]; rfl
  | cons m members ih => rw [memberDocuments, ih]; rfl

mutual

/-- No array stands where a string of fixed size is expected. -/
def Fits : Shape → Json → Prop
  | shape, .array items => (∀ size, shape ≠ .bytes size) ∧ ItemsFit shape items
  | shape, .object members => MembersFit shape members
  | _, _ => True

def ItemsFit : Shape → List Json → Prop
  | _, [] => True
  | shape, item :: rest => item.Fits shape.first ∧ ItemsFit shape.others rest

def MembersFit : Shape → List (String × Json) → Prop
  | _, [] => True
  | shape, (key, value) :: rest => value.Fits (shape.member (some key)) ∧ MembersFit shape rest

end

end Json

open Json (indented indentedItems indentedMembers newLine)

/-! ## Blanks -/

theorem toList_newLine (level : Nat) :
    (newLine level).toList = '\n' :: List.replicate (2 * level) ' ' := by
  rw [newLine, String.toList_append, String.toList_ofList, String.toList_ofList]
  rfl

theorem skipBlank_newLine (level : Nat) (chars : List Char) :
    skipBlank ((newLine level).toList ++ chars) = skipBlank chars := by
  have hspaces : ∀ n, skipBlank (List.replicate n ' ' ++ chars) = skipBlank chars := by
    intro n
    induction n with
    | zero => rfl
    | succ n ih => exact ih
  rw [toList_newLine]
  exact hspaces _

theorem skipBlank_of_not_blank {c : Char} (h : ¬ (c = ' ' ∨ c = '\n' ∨ c = '\t' ∨ c = '\r'))
    (rest : List Char) : skipBlank (c :: rest) = c :: rest := if_neg h

theorem skipBlank_space (chars : List Char) : skipBlank (' ' :: chars) = skipBlank chars := rfl

namespace Document

/-- Blanks in front of a value, an item or a member do not count. -/
theorem readValue_congr {chars chars' : List Char} (h : skipBlank chars = skipBlank chars')
    (fuel : Nat) (shape : Shape) : readValue fuel shape chars = readValue fuel shape chars' := by
  cases fuel with
  | zero => rfl
  | succ fuel => rw [readValue, readValue, h]

theorem readItems_congr {chars chars' : List Char} (h : skipBlank chars = skipBlank chars')
    (fuel : Nat) (shape : Shape) : readItems fuel shape chars = readItems fuel shape chars' := by
  cases fuel with
  | zero => rfl
  | succ fuel => rw [readItems, readItems, readValue_congr h]

theorem readMembers_congr {chars chars' : List Char} (h : skipBlank chars = skipBlank chars')
    (fuel : Nat) (shape : Shape) :
    readMembers fuel shape chars = readMembers fuel shape chars' := by
  cases fuel with
  | zero => rfl
  | succ fuel => rw [readMembers, readMembers, h]

/-! ## Values -/

theorem readValue_text (fuel : Nat) (shape : Shape) (s : String) (rest : List Char) :
    readValue (fuel + 1) shape ((Json.quote s).toList ++ rest) = some (.text (some s), rest) := by
  obtain ⟨chars, htext, hread⟩ := readText_quote s rest
  rw [htext, readValue, skipBlank_of_not_blank (by decide)]
  simp only [hread, Option.map_some]

theorem readValue_natural (fuel : Nat) (shape : Shape) (n : Nat) {rest : List Char}
    (h : Follows rest) :
    readValue (fuel + 1) shape ((toString n).toList ++ rest) = some (.natural n, rest) := by
  obtain ⟨c, digits, hdigits⟩ := List.exists_cons_of_ne_nil
    (show (toString n).toList ≠ [] from toList_toString n ▸ Nat.toDigits_ne_nil)
  have hdigit : c.isDigit = true := isDigit_of_mem_toString (hdigits ▸ List.mem_cons_self)
  have hread := readNumber_toString h n
  rw [hdigits, List.cons_append] at hread ⊢
  have hblank : ¬ (c = ' ' ∨ c = '\n' ∨ c = '\t' ∨ c = '\r') := by
    rintro (rfl | rfl | rfl | rfl) <;> exact absurd hdigit (by decide)
  have hother : ∀ d : Char, d.isDigit = false → ∀ back, c :: (digits ++ rest) ≠ d :: back := by
    intro d hd back heq
    rw [(List.cons.inj heq).1, hd] at hdigit
    cases hdigit
  rw [readValue, skipBlank_of_not_blank hblank]
  split
  · next heq => cases heq
  rotate_right
  · rw [hread]
    rfl
  -- Nothing else begins with a digit.
  all_goals next heq => exact absurd heq (hother _ (by decide) _)

/-- The text of a value begins with neither a blank nor a bracket that closes. -/
theorem exists_opening (level : Nat) (j : Json) :
    ∃ c chars, (indented level j).toList = c :: chars ∧
      ¬ (c = ' ' ∨ c = '\n' ∨ c = '\t' ∨ c = '\r') ∧ c ≠ ']' := by
  cases j with
  | null => exact ⟨'n', ['u', 'l', 'l'], by rw [indented]; rfl, by decide, by decide⟩
  | bool b =>
    cases b with
    | true => exact ⟨'t', ['r', 'u', 'e'], by rw [indented]; rfl, by decide, by decide⟩
    | false => exact ⟨'f', ['a', 'l', 's', 'e'], by rw [indented]; rfl, by decide, by decide⟩
  | natural n =>
    obtain ⟨c, digits, hdigits⟩ := List.exists_cons_of_ne_nil
      (show (toString n).toList ≠ [] from toList_toString n ▸ Nat.toDigits_ne_nil)
    have hdigit : c.isDigit = true := isDigit_of_mem_toString (hdigits ▸ List.mem_cons_self)
    refine ⟨c, digits, by rw [indented]; exact hdigits, ?_, ?_⟩
    · rintro (rfl | rfl | rfl | rfl) <;> exact absurd hdigit (by decide)
    · rintro rfl
      exact absurd hdigit (by decide)
  | string s => exact ⟨'"', _, by rw [indented, toList_quote]; rfl, by decide, by decide⟩
  | array items =>
    refine ⟨'[', (indented level (.array items)).toList.tail, ?_, by decide, by decide⟩
    cases items <;> simp [indented]
  | object members =>
    refine ⟨'\x7b', (indented level (.object members)).toList.tail, ?_, by decide, by decide⟩
    cases members <;> simp [indented]

theorem readItems_last {fuel level : Nat} {shape : Shape} {chars back : List Char}
    {item : Document}
    (h : readValue fuel shape.first chars = some (item, (newLine level).toList ++ ']' :: back)) :
    readItems (fuel + 1) shape chars = some ([item], back) := by
  rw [readItems, h]
  simp only [bind, Option.bind, skipBlank_newLine, skipBlank_of_not_blank (c := ']') (by decide)]

theorem readItems_cons {fuel : Nat} {shape : Shape} {chars rest back : List Char}
    {item : Document} {items : List Document}
    (h : readValue fuel shape.first chars = some (item, ',' :: rest))
    (hrest : readItems fuel shape.others rest = some (items, back)) :
    readItems (fuel + 1) shape chars = some (item :: items, back) := by
  rw [readItems, h]
  simp only [bind, Option.bind, skipBlank_of_not_blank (c := ',') (by decide), hrest]
  rfl

theorem readMembers_last {fuel level : Nat} {shape : Shape} {key : String}
    {chars back : List Char} {value : Document}
    (h : readValue fuel (shape.member (some key)) chars =
      some (value, (newLine level).toList ++ '\x7d' :: back)) :
    readMembers (fuel + 1) shape ((Json.quote key).toList ++ ':' :: ' ' :: chars) =
      some ([(some key, value)], back) := by
  obtain ⟨inside, htext, hread⟩ := readText_quote key (':' :: ' ' :: chars)
  have hvalue := (readValue_congr (skipBlank_space chars) fuel (shape.member (some key))).trans h
  rw [htext, readMembers, skipBlank_of_not_blank (by decide)]
  simp only [hread, bind, Option.bind, skipBlank_of_not_blank (c := ':') (by decide), hvalue,
    skipBlank_newLine, skipBlank_of_not_blank (c := '\x7d') (by decide)]

theorem readMembers_cons {fuel : Nat} {shape : Shape} {key : String}
    {chars rest back : List Char} {value : Document}
    {members : List (Option String × Document)}
    (h : readValue fuel (shape.member (some key)) chars = some (value, ',' :: rest))
    (hrest : readMembers fuel shape rest = some (members, back)) :
    readMembers (fuel + 1) shape ((Json.quote key).toList ++ ':' :: ' ' :: chars) =
      some ((some key, value) :: members, back) := by
  obtain ⟨inside, htext, hread⟩ := readText_quote key (':' :: ' ' :: chars)
  have hvalue := (readValue_congr (skipBlank_space chars) fuel (shape.member (some key))).trans h
  rw [htext, readMembers, skipBlank_of_not_blank (by decide)]
  simp only [hread, bind, Option.bind, skipBlank_of_not_blank (c := ':') (by decide), hvalue,
    skipBlank_of_not_blank (c := ',') (by decide), hrest]
  rfl

/-! ## Whole values -/

theorem toList_indented_array (level : Nat) (item : Json) (items : List Json) :
    (indented level (.array (item :: items))).toList =
      '[' :: ((newLine (level + 1)).toList ++ ((indented (level + 1) item).toList ++
        ((indentedItems (level + 1) items).toList ++ ((newLine level).toList ++ [']'])))) := by
  simp [indented]

theorem toList_indented_object (level : Nat) (key : String) (value : Json)
    (members : List (String × Json)) :
    (indented level (.object ((key, value) :: members))).toList =
      '\x7b' :: ((newLine (level + 1)).toList ++ ((Json.quote key).toList ++ ':' :: ' ' ::
        ((indented (level + 1) value).toList ++ ((indentedMembers (level + 1) members).toList ++
          ((newLine level).toList ++ ['\x7d']))))) := by
  simp [indented]

theorem toList_indentedItems (level : Nat) (item : Json) (items : List Json) :
    (indentedItems level (item :: items)).toList =
      ',' :: ((newLine level).toList ++
        ((indented level item).toList ++ (indentedItems level items).toList)) := by
  simp [indentedItems]

theorem toList_indentedMembers (level : Nat) (key : String) (value : Json)
    (members : List (String × Json)) :
    (indentedMembers level ((key, value) :: members)).toList =
      ',' :: ((newLine level).toList ++ ((Json.quote key).toList ++ ':' :: ' ' ::
        ((indented level value).toList ++ (indentedMembers level members).toList))) := by
  simp [indentedMembers]

/-- An array with items is read as its items are, unless a string of fixed size is expected. -/
theorem readValue_array {fuel level : Nat} {shape : Shape} {item : Json} {items : List Json}
    {rest : List Char} {documents : List Document} (hshape : ∀ size, shape ≠ .bytes size)
    (h : readItems fuel shape ((indented (level + 1) item).toList ++
      ((indentedItems (level + 1) items).toList ++ ((newLine level).toList ++ ']' :: rest))) =
        some (documents, rest)) :
    readValue (fuel + 1) shape ((indented level (.array (item :: items))).toList ++ rest) =
      some (.array documents, rest) := by
  obtain ⟨c, chars, htext, hc, hclosing⟩ := exists_opening (level + 1) item
  rw [toList_indented_array]
  simp only [List.cons_append, List.append_assoc, List.nil_append, htext] at h ⊢
  have hskip := (skipBlank_newLine (level + 1) _).trans (skipBlank_of_not_blank hc (chars ++
    ((indentedItems (level + 1) items).toList ++ ((newLine level).toList ++ ']' :: rest))))
  cases shape with
  | bytes size => exact absurd rfl (hshape size)
  | _ =>
    rw [readValue, skipBlank_of_not_blank (by decide)]
    simp only [hskip]
    split
    · next heq => exact absurd (List.cons.inj heq).1 hclosing
    · rw [h]
      rfl

/-- An object with members is read as its members are. -/
theorem readValue_object {fuel level : Nat} {shape : Shape} {key : String} {value : Json}
    {members : List (String × Json)} {rest : List Char}
    {documents : List (Option String × Document)}
    (h : readMembers fuel shape ((Json.quote key).toList ++ ':' :: ' ' ::
      ((indented (level + 1) value).toList ++ ((indentedMembers (level + 1) members).toList ++
        ((newLine level).toList ++ '\x7d' :: rest)))) = some (documents, rest)) :
    readValue (fuel + 1) shape
        ((indented level (.object ((key, value) :: members))).toList ++ rest) =
      some (.object documents, rest) := by
  rw [toList_indented_object]
  simp only [List.cons_append, List.append_assoc, List.nil_append, toList_quote] at h ⊢
  rw [readValue, skipBlank_of_not_blank (by decide)]
  simp only [skipBlank_newLine, skipBlank_of_not_blank (c := '"') (by decide)]
  show (readMembers fuel shape _).map _ = _
  rw [h]
  rfl

theorem readValue_brackets (fuel : Nat) {shape : Shape} (hshape : ∀ size, shape ≠ .bytes size)
    (rest : List Char) :
    readValue (fuel + 1) shape ("[]".toList ++ rest) = some (.array [], rest) := by
  cases shape with
  | bytes size => exact absurd rfl (hshape size)
  | _ => rfl

theorem readValue_braces (fuel : Nat) (shape : Shape) (rest : List Char) :
    readValue (fuel + 1) shape ("\x7b\x7d".toList ++ rest) = some (.object [], rest) := rfl

theorem length_array {level fuel : Nat} {item : Json} {items : List Json}
    (h : (indented level (.array (item :: items))).toList.length ≤ fuel + 1) :
    (indented (level + 1) item).toList.length + (indentedItems (level + 1) items).toList.length <
      fuel := by
  rw [toList_indented_array] at h
  simp only [List.length_cons, List.length_append] at h
  omega

theorem length_object {level fuel : Nat} {key : String} {value : Json}
    {members : List (String × Json)}
    (h : (indented level (.object ((key, value) :: members))).toList.length ≤ fuel + 1) :
    (indented (level + 1) value).toList.length +
      (indentedMembers (level + 1) members).toList.length < fuel := by
  rw [toList_indented_object] at h
  simp only [List.length_cons, List.length_append] at h
  omega

theorem follows_newLine (level : Nat) (back : List Char) :
    Follows ((newLine level).toList ++ back) := by
  rw [toList_newLine]
  rintro c ⟨⟩
  exact Or.inr rfl

theorem follows_comma (back : List Char) : Follows (',' :: back) := by
  rintro c ⟨⟩
  exact Or.inl rfl

theorem follows_items (level level' : Nat) (items : List Json) (back : List Char) :
    Follows ((indentedItems level items).toList ++ ((newLine level').toList ++ back)) := by
  cases items with
  | nil => exact follows_newLine level' back
  | cons item items =>
    rw [toList_indentedItems]
    exact follows_comma _

theorem follows_members (level level' : Nat) (members : List (String × Json)) (back : List Char) :
    Follows ((indentedMembers level members).toList ++ ((newLine level').toList ++ back)) := by
  cases members with
  | nil => exact follows_newLine level' back
  | cons member members =>
    rw [toList_indentedMembers]
    exact follows_comma _

/-- With this much fuel, all values, items and members are read back whose text is not longer. -/
structure ReadsBack (fuel : Nat) : Prop where
  value : ∀ (j : Json) (level : Nat) (shape : Shape), j.Fits shape →
    (indented level j).toList.length ≤ fuel → ∀ rest, Follows rest →
    readValue fuel shape ((indented level j).toList ++ rest) = some (j.document, rest)
  items : ∀ (item : Json) (items : List Json) (level level' : Nat) (shape : Shape),
    Json.ItemsFit shape (item :: items) →
    (indented level item).toList.length + (indentedItems level items).toList.length < fuel →
    ∀ back, readItems fuel shape ((indented level item).toList ++
      ((indentedItems level items).toList ++ ((newLine level').toList ++ ']' :: back))) =
        some (Json.itemDocuments (item :: items), back)
  members : ∀ (key : String) (value : Json) (members : List (String × Json)) (level level' : Nat)
    (shape : Shape), Json.MembersFit shape ((key, value) :: members) →
    (indented level value).toList.length + (indentedMembers level members).toList.length < fuel →
    ∀ back, readMembers fuel shape ((Json.quote key).toList ++ ':' :: ' ' ::
      ((indented level value).toList ++ ((indentedMembers level members).toList ++
        ((newLine level').toList ++ '\x7d' :: back)))) =
          some (Json.memberDocuments ((key, value) :: members), back)

namespace ReadsBack

variable {fuel : Nat} (h : ReadsBack fuel)

include h

theorem value_succ (j : Json) (level : Nat) (shape : Shape) (hfits : j.Fits shape)
    (hfuel : (indented level j).toList.length ≤ fuel + 1) (rest : List Char)
    (hrest : Follows rest) :
    readValue (fuel + 1) shape ((indented level j).toList ++ rest) = some (j.document, rest) := by
  cases j with
  | null =>
    rw [indented]
    rfl
  | bool b =>
    rw [indented]
    cases b <;> rfl
  | natural n =>
    rw [indented]
    exact readValue_natural fuel shape n hrest
  | string s =>
    rw [indented]
    exact readValue_text fuel shape s rest
  | array items =>
    rw [Json.Fits] at hfits
    cases items with
    | nil =>
      rw [indented]
      exact readValue_brackets fuel hfits.1 rest
    | cons item items =>
      exact readValue_array hfits.1
        (h.items item items (level + 1) level shape hfits.2 (length_array hfuel) rest)
  | object members =>
    rw [Json.Fits] at hfits
    cases members with
    | nil =>
      rw [indented]
      exact readValue_braces fuel shape rest
    | cons member members =>
      obtain ⟨key, value⟩ := member
      exact readValue_object
        (h.members key value members (level + 1) level shape hfits (length_object hfuel) rest)

theorem items_succ (item : Json) (items : List Json) (level level' : Nat) (shape : Shape)
    (hfits : Json.ItemsFit shape (item :: items))
    (hfuel : (indented level item).toList.length + (indentedItems level items).toList.length <
      fuel + 1) (back : List Char) :
    readItems (fuel + 1) shape ((indented level item).toList ++
      ((indentedItems level items).toList ++ ((newLine level').toList ++ ']' :: back))) =
        some (Json.itemDocuments (item :: items), back) := by
  rw [Json.ItemsFit] at hfits
  have hitem := h.value item level shape.first hfits.1 (by omega) _
    (follows_items level level' items (']' :: back))
  cases items with
  | nil =>
    rw [indentedItems] at hitem ⊢
    exact readItems_last hitem
  | cons next items =>
    rw [toList_indentedItems] at hfuel hitem ⊢
    simp only [List.length_cons, List.length_append] at hfuel
    simp only [List.cons_append, List.append_assoc] at hitem ⊢
    refine readItems_cons hitem ?_
    rw [readItems_congr (skipBlank_newLine level _)]
    exact h.items next items level level' shape.others hfits.2 (by omega) back

theorem members_succ (key : String) (value : Json) (members : List (String × Json))
    (level level' : Nat) (shape : Shape)
    (hfits : Json.MembersFit shape ((key, value) :: members))
    (hfuel : (indented level value).toList.length + (indentedMembers level members).toList.length <
      fuel + 1) (back : List Char) :
    readMembers (fuel + 1) shape ((Json.quote key).toList ++ ':' :: ' ' ::
      ((indented level value).toList ++ ((indentedMembers level members).toList ++
        ((newLine level').toList ++ '\x7d' :: back)))) =
          some (Json.memberDocuments ((key, value) :: members), back) := by
  rw [Json.MembersFit] at hfits
  have hvalue := h.value value level _ hfits.1 (by omega) _
    (follows_members level level' members ('\x7d' :: back))
  cases members with
  | nil =>
    rw [indentedMembers] at hvalue ⊢
    exact readMembers_last hvalue
  | cons member members =>
    obtain ⟨next, other⟩ := member
    rw [toList_indentedMembers] at hfuel hvalue ⊢
    simp only [List.length_cons, List.length_append] at hfuel
    simp only [List.cons_append, List.append_assoc] at hvalue ⊢
    refine readMembers_cons hvalue ?_
    rw [readMembers_congr (skipBlank_newLine level _)]
    exact h.members next other members level level' shape hfits.2 (by omega) back

end ReadsBack

theorem readsBack (fuel : Nat) : ReadsBack fuel := by
  induction fuel with
  | zero =>
    refine ⟨fun j level shape _ hfuel => ?_, fun _ _ _ _ _ _ hfuel => ?_,
      fun _ _ _ _ _ _ _ hfuel => ?_⟩
    · obtain ⟨c, chars, htext, -⟩ := exists_opening level j
      rw [htext] at hfuel
      cases hfuel
    · exact absurd hfuel (Nat.not_lt_zero _)
    · exact absurd hfuel (Nat.not_lt_zero _)
  | succ fuel ih => exact ⟨ih.value_succ, ih.items_succ, ih.members_succ⟩

/-- A value is read back from its indented text. -/
theorem parse?_pretty {shape : Shape} {j : Json} (h : j.Fits shape) :
    parse? shape j.pretty = some j.document := by
  have hread := (readsBack (2 * j.pretty.toList.length + 2)).value j 0 shape h
    (show j.pretty.toList.length ≤ _ by omega) [] nofun
  rw [List.append_nil] at hread
  unfold parse?
  rw [Json.pretty] at hread ⊢
  simp only [hread, bind, Option.bind]
  rfl

end Document

end TwinLedger
