import TwinLedger.Diagnostics.Disk

/-!
# Texts in one directory

A path is made of a directory and a name, and what it names is the directory's place with the name
below it, whatever the path of the directory looks like (`Path.components_join`). So a directory
that has been made stays one while texts are made in it, and whether a name is refused there is
settled before the first of them (`Disk.refuses_addTexts`):

> what can be made in a directory depends on the names that it refuses, and not on the texts in it.
-/

namespace TwinLedger

namespace Path

/-! ## Parts -/

theorem parts_ne_nil (text : List Char) : parts text ≠ [] := by
  cases text with
  | nil => exact List.cons_ne_nil _ _
  | cons c rest =>
    unfold parts
    split
    · exact List.cons_ne_nil _ _
    · split <;> exact List.cons_ne_nil _ _

theorem parts_of_not_mem {text : List Char} (h : '/' ∉ text) : parts text = [text] := by
  induction text with
  | nil => rfl
  | cons c rest ih =>
    rw [List.mem_cons, not_or] at h
    unfold parts
    rw [if_neg (Ne.symm h.1), ih h.2]

theorem parts_append_slash (xs ys : List Char) :
    parts (xs ++ '/' :: ys) = parts xs ++ parts ys := by
  induction xs with
  | nil => rfl
  | cons c rest ih =>
    rw [List.cons_append, parts, parts, ih]
    split
    · rfl
    · cases h : parts rest with
      | nil => exact absurd h (parts_ne_nil rest)
      | cons p ps => rfl

theorem placesFrom_append (place : List String) (ps qs : List (List Char)) :
    placesFrom place (ps ++ qs) = placesFrom place ps ++ placesFrom (ps.foldl step place) qs := by
  induction ps generalizing place with
  | nil => rfl
  | cons p ps ih => exact congrArg (step place p :: ·) (ih (step place p))

/-! ## Names -/

/-- A text that names what it says in every directory. -/
structure IsName (name : String) : Prop where
  ne_empty : name ≠ ""
  ne_here : name ≠ "."
  ne_up : name ≠ ".."
  noSlash : '/' ∉ name.toList

/-- A text with a character other than dots is neither empty nor one of the special names. -/
theorem isName_of_mem {name : String} {c : Char} (hmem : c ∈ name.toList) (hc : c ≠ '.')
    (hslash : '/' ∉ name.toList) : IsName name := by
  refine ⟨?_, ?_, ?_, hslash⟩ <;> rintro rfl
  · exact absurd hmem List.not_mem_nil
  · exact hc (List.mem_singleton.1 hmem)
  · exact hc (by simpa using hmem)

theorem step_name (place : List String) {name : String} (h : IsName name) :
    step place name.toList = place ++ [name] := by
  unfold step
  split
  · next hname => exact absurd (String.toList_inj.1 hname) h.ne_empty
  · next hname => exact absurd (String.toList_inj.1 hname) h.ne_here
  · next hname => exact absurd (String.toList_inj.1 hname) h.ne_up
  · rw [String.ofList_toList]

/-! ## Joined paths -/

/-- The name is the last part. Those before it are the directory's, up to an empty one at its
end. -/
theorem parts_join (directory : String) {name : String} (h : '/' ∉ name.toList) :
    ∃ front, parts (join directory name).toList = front ++ [name.toList] ∧
      (parts directory.toList = front ∨ parts directory.toList = front ++ [[]]) := by
  have hhead : name.toList.head? ≠ some '/' := fun hslash => h (List.mem_of_head? hslash)
  unfold join
  rw [if_neg hhead]
  by_cases hempty : directory = ""
  · subst hempty
    refine ⟨[], ?_, Or.inr rfl⟩
    rw [if_pos (by decide), String.empty_append]
    exact parts_of_not_mem h
  by_cases hlast : directory.toList.getLast? = some '/'
  · obtain ⟨xs, hxs⟩ := List.getLast?_eq_some_iff.1 hlast
    refine ⟨parts xs, ?_, Or.inr ?_⟩
    · rw [if_pos (by rw [hlast]; simp), String.toList_append, hxs, List.append_assoc,
        List.singleton_append, parts_append_slash, parts_of_not_mem h]
    · rw [hxs, parts_append_slash]
      rfl
  · refine ⟨parts directory.toList, ?_, Or.inl rfl⟩
    have hslash : ("/" : String).toList = ['/'] := rfl
    rw [if_neg (by simp [hempty, hlast]), String.toList_append, String.toList_append, hslash,
      List.append_assoc, List.singleton_append, parts_append_slash, parts_of_not_mem h]

/-- A joined path passes places that the directory passes, and ends below it. -/
theorem places_join (directory : String) {name : String} (h : IsName name) :
    ∃ before, places (join directory name) = before ++ [components directory ++ [name]] ∧
      ∀ p ∈ before, p ∈ places directory := by
  obtain ⟨front, hparts, hfront⟩ := parts_join directory h.noSlash
  have hcomponents : components directory = front.foldl step [] := by
    unfold components
    rcases hfront with hfront | hfront <;> rw [hfront]
    rw [List.foldl_append]
    rfl
  refine ⟨placesFrom [] front, ?_, fun p hp => ?_⟩
  · unfold places
    rw [hparts, placesFrom_append, placesFrom, placesFrom, step_name _ h, hcomponents]
  · unfold places
    rcases hfront with hfront | hfront <;> rw [hfront]
    · exact hp
    · rw [placesFrom_append]
      exact List.mem_append_left _ hp

theorem components_join (directory : String) {name : String} (h : IsName name) :
    components (join directory name) = components directory ++ [name] := by
  obtain ⟨front, hparts, hfront⟩ := parts_join directory h.noSlash
  unfold components
  rw [hparts, List.foldl_append, List.foldl_cons, List.foldl_nil, step_name _ h]
  rcases hfront with hfront | hfront <;> rw [hfront]
  rw [List.foldl_append]
  rfl

end Path

namespace Disk

/-! ## Refused names -/

/-- Whether no text of a name can be made in a directory. -/
def refuses (d : Disk) (directory name : String) : Bool :=
  (d.makeFile? (Path.join directory name) "").isNone

/-- A directory that has been made. Directories stand on the whole way to it, and no texts. -/
structure HasDirectory (d : Disk) (directory : String) : Prop where
  notBlocked : d.isBlocked (Path.places directory) = false
  isDirectory : ∀ p ∈ Path.places directory, d.isDirectory p = true

theorem hasDirectory_of_makeDirectory? {d opened : Disk} {directory : String}
    (h : d.makeDirectory? directory = some opened) :
    opened.HasDirectory directory ∧ opened.files = d.files := by
  simp only [makeDirectory?] at h
  split at h
  · cases h
  · next hcheck =>
    cases h
    refine ⟨⟨?_, fun p hp => ?_⟩, rfl⟩
    · rw [Bool.or_eq_true, not_or] at hcheck
      exact eq_false_of_ne_true hcheck.2
    · refine List.any_eq_true.2 ⟨p, List.mem_append_right _ hp, ?_⟩
      exact List.isPrefixOf_iff_prefix.2 (List.prefix_refl p)

variable {d : Disk} {directory : String}

/-- In a directory that has been made, a name is refused because its path is not sound or because
a directory has it. -/
theorem makeFile?_of_hasDirectory (h : d.HasDirectory directory) {name : String}
    (hname : Path.IsName name) (text : String) :
    d.makeFile? (Path.join directory name) text =
      if !Path.isSound (Path.join directory name) ||
          d.isDirectory (Path.components directory ++ [name]) then none
      else some { d with
        files := d.files.filter (·.1 != Path.components directory ++ [name]) ++
          [(Path.components directory ++ [name], text)] } := by
  obtain ⟨before, hplaces, hbefore⟩ := Path.places_join directory hname
  have hclear : d.isBlocked before = false := by
    have hdirectory := h.notBlocked
    unfold isBlocked at hdirectory ⊢
    rw [List.any_eq_false] at hdirectory ⊢
    intro f hf hcontains
    refine hdirectory f hf (List.contains_iff_mem.2 ?_)
    exact hbefore _ (List.contains_iff_mem.1 hcontains)
  unfold makeFile?
  simp only [hplaces, List.dropLast_concat, hclear, Path.components_join directory hname,
    Bool.or_false]

theorem refuses_of_hasDirectory (h : d.HasDirectory directory) {name : String}
    (hname : Path.IsName name) :
    d.refuses directory name = (!Path.isSound (Path.join directory name) ||
      d.isDirectory (Path.components directory ++ [name])) := by
  unfold refuses
  rw [makeFile?_of_hasDirectory h hname]
  split
  · next hcheck => exact hcheck.symm
  · next hcheck => exact (eq_false_of_ne_true hcheck).symm

/-! ## Making texts -/

/-- The disk with more texts in a directory. -/
def addTexts (d : Disk) (directory : String) (texts : List (String × String)) : Disk :=
  { d with files := d.files ++ texts.map fun f => (Path.components directory ++ [f.1], f.2) }

@[simp]
theorem addTexts_nil (d : Disk) (directory : String) : d.addTexts directory [] = d := by
  unfold addTexts
  rw [List.map_nil, List.append_nil]

theorem addTexts_addTexts (d : Disk) (directory : String) (xs ys : List (String × String)) :
    (d.addTexts directory xs).addTexts directory ys = d.addTexts directory (xs ++ ys) := by
  unfold addTexts
  rw [List.map_append, List.append_assoc]

/-- What is under the directory are the texts of before and the new ones. -/
theorem filesUnder_addTexts (d : Disk) (directory : String) (texts : List (String × String)) :
    (d.addTexts directory texts).filesUnder directory = d.filesUnder directory ++ texts := by
  unfold filesUnder addTexts
  simp only [List.filterMap_append, List.filterMap_map]
  congr 1
  -- Each new text is seen under its own name.
  have hone : ∀ f : String × String,
      ((fun f : List String × String =>
        if (Path.components directory).isPrefixOf f.1 then
          some ("/".intercalate (f.1.drop (Path.components directory).length), f.2)
        else none) ∘ fun f => (Path.components directory ++ [f.1], f.2)) f = some f := by
    intro f
    have hunder := List.isPrefixOf_iff_prefix.2 (List.prefix_append
      (Path.components directory) [f.1])
    simp only [Function.comp, hunder, if_true, List.drop_left, String.intercalate_singleton]
  rw [funext hone, List.filterMap_some]

/-- A text can be made under a name that is not refused and not taken. -/
theorem makeFile?_eq (h : d.HasDirectory directory) {name : String} (hname : Path.IsName name)
    (htaken : ∀ f ∈ d.files, f.1 ≠ Path.components directory ++ [name]) (text : String) :
    d.makeFile? (Path.join directory name) text =
      if d.refuses directory name then none else some (d.addTexts directory [(name, text)]) := by
  have hkept : d.files.filter (·.1 != Path.components directory ++ [name]) = d.files :=
    List.filter_eq_self.2 fun f hf => bne_iff_ne.2 (htaken f hf)
  rw [makeFile?_of_hasDirectory h hname, refuses_of_hasDirectory h hname, hkept]
  rfl

/-- The texts in a directory are not on the way to it, so it stays a directory. -/
theorem HasDirectory.addText (h : d.HasDirectory directory) {name : String}
    (hname : Path.IsName name) (hmade : d.refuses directory name = false) (text : String) :
    (d.addTexts directory [(name, text)]).HasDirectory directory := by
  refine ⟨?_, h.isDirectory⟩
  have hfree : (Path.places directory).contains (Path.components directory ++ [name]) = false := by
    rw [refuses_of_hasDirectory h hname, Bool.or_eq_false_iff] at hmade
    cases hplace : (Path.places directory).contains (Path.components directory ++ [name]) with
    | false => rfl
    | true =>
      -- A place on the way is a directory, and there the name would have been refused.
      rw [h.isDirectory _ (List.contains_iff_mem.1 hplace)] at hmade
      cases hmade.2
  have hbefore := h.notBlocked
  unfold isBlocked at hbefore ⊢
  rw [addTexts, List.any_append, hbefore, List.map_singleton, List.any_cons, hfree]
  rfl

/-- New texts do not change which names are refused. -/
theorem refuses_addTexts (h : d.HasDirectory directory) {texts : List (String × String)}
    (h' : (d.addTexts directory texts).HasDirectory directory) {name : String}
    (hname : Path.IsName name) :
    (d.addTexts directory texts).refuses directory name = d.refuses directory name := by
  rw [refuses_of_hasDirectory h hname, refuses_of_hasDirectory h' hname]
  rfl

/-! ## Names that are to be refused -/

/-- The disk with directories in a directory, which take their names from texts. -/
def obstruct (d : Disk) (directory : String) (names : List String) : Disk :=
  { d with directories :=
    d.directories ++ names.map fun name => Path.components directory ++ [name] }

/-- Every set of names is refused on some disk: with a directory under each of them, these are
refused, and no others are that were not refused before. -/
theorem makeDirectory?_obstruct {d opened : Disk} {directory : String}
    (h : d.makeDirectory? directory = some opened) (names : List String) :
    ∃ obstructed, (d.obstruct directory names).makeDirectory? directory = some obstructed ∧
      (d.obstruct directory names).filesUnder directory = d.filesUnder directory ∧
      ∀ name, Path.IsName name → (obstructed.refuses directory name = true ↔
        opened.refuses directory name = true ∨ name ∈ names) := by
  have hmake : (d.obstruct directory names).makeDirectory? directory = some
      { d with directories := (d.obstruct directory names).directories ++ Path.places directory } ∧
      opened = { d with directories := d.directories ++ Path.places directory } := by
    simp only [makeDirectory?] at h ⊢
    split at h
    · cases h
    · next hcheck => exact ⟨if_neg hcheck, (Option.some.inj h).symm⟩
  obtain ⟨hobstructed, rfl⟩ := hmake
  refine ⟨_, hobstructed, rfl, fun name hname => ?_⟩
  have htaken : (names.map fun taken => Path.components directory ++ [taken]).any
      (Path.components directory ++ [name]).isPrefixOf = true ↔ name ∈ names := by
    simp only [List.any_eq_true, List.mem_map, List.isPrefixOf_iff_prefix]
    constructor
    · rintro ⟨-, ⟨taken, htaken, rfl⟩, hleads⟩
      rw [List.prefix_append_right_inj, List.cons_prefix_cons] at hleads
      rw [hleads.1]
      exact htaken
    · intro hmem
      exact ⟨_, ⟨name, hmem, rfl⟩, List.prefix_refl _⟩
  rw [refuses_of_hasDirectory (hasDirectory_of_makeDirectory? hobstructed).1 hname,
    refuses_of_hasDirectory (hasDirectory_of_makeDirectory? h).1 hname]
  simp only [isDirectory, obstruct, List.any_append, Bool.or_eq_true, htaken, or_assoc]
  rw [or_comm (a := name ∈ names)]

end Disk

end TwinLedger
