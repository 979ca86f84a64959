import TwinLedger.Data.Bytes

/-!
# Sorted maps

Finite maps as lists of entries in strictly increasing order of their keys. Since the order is
strict, a map has one form only: two maps that answer every look-up alike are equal
(`SortedMap.ext_get?`), so equality of maps is equality of contents, and going through the
entries meets the keys in order.
-/

namespace TwinLedger

/-- Keys with a number that tells them apart and orders them. -/
class Ranked (κ : Type) where
  rank : κ → Nat
  eq_of_rank_eq : ∀ {a b : κ}, rank a = rank b → a = b

instance (size : Nat) : Ranked (FixedBytes size) where
  rank := FixedBytes.toNat
  eq_of_rank_eq := FixedBytes.ext

open Ranked (rank eq_of_rank_eq)

/-- A map from keys to values, held in the order of the keys. -/
structure SortedMap (κ ν : Type) [Ranked κ] where
  entries : List (κ × ν)
  sorted : entries.Pairwise fun a b => rank a.1 < rank b.1

namespace SortedMap

variable {κ ν : Type} [Ranked κ]

theorem ext_entries {m n : SortedMap κ ν} (h : m.entries = n.entries) : m = n := by
  cases m
  cases n
  cases h
  rfl

instance [DecidableEq κ] [DecidableEq ν] : DecidableEq (SortedMap κ ν) := fun m n =>
  decidable_of_iff (m.entries = n.entries) ⟨ext_entries, congrArg _⟩

/-! ## Lists of entries -/

/-- The value of the first entry with the key. -/
def lookup (k : κ) : List (κ × ν) → Option ν
  | [] => none
  | e :: rest => if rank k = rank e.1 then some e.2 else lookup k rest

/-- Puts an entry at its place, over an entry of the same key. -/
def put (k : κ) (v : ν) : List (κ × ν) → List (κ × ν)
  | [] => [(k, v)]
  | e :: rest =>
    if rank k < rank e.1 then (k, v) :: e :: rest
    else if rank k = rank e.1 then (k, v) :: rest
    else e :: put k v rest

/-- Leaves the entries of all other keys. -/
def without (k : κ) (es : List (κ × ν)) : List (κ × ν) := es.filter fun e => rank k != rank e.1

theorem lookup_eq_none {k : κ} {es : List (κ × ν)} (h : ∀ e ∈ es, rank k ≠ rank e.1) :
    lookup k es = none := by
  induction es with
  | nil => rfl
  | cons e rest ih =>
    rw [lookup, if_neg (h e (by simp))]
    exact ih fun x hx => h x (by simp [hx])

theorem mem_put {k : κ} {v : ν} {es : List (κ × ν)} {e : κ × ν} (h : e ∈ put k v es) :
    e = (k, v) ∨ e ∈ es := by
  induction es with
  | nil => simpa [put] using h
  | cons x rest ih =>
    unfold put at h
    split at h
    · simpa using h
    · split at h
      · simp only [List.mem_cons] at h ⊢
        exact h.imp id Or.inr
      · simp only [List.mem_cons] at h ⊢
        rcases h with rfl | h
        · exact Or.inr (Or.inl rfl)
        · exact (ih h).imp id Or.inr

theorem sorted_put {k : κ} {v : ν} {es : List (κ × ν)}
    (h : es.Pairwise fun a b => rank a.1 < rank b.1) :
    (put k v es).Pairwise fun a b => rank a.1 < rank b.1 := by
  induction es with
  | nil => simp [put]
  | cons x rest ih =>
    have hx := List.pairwise_cons.1 h
    unfold put
    split
    · next hlt =>
      refine List.pairwise_cons.2 ⟨fun e he => ?_, h⟩
      rcases List.mem_cons.1 he with rfl | he
      · exact hlt
      · exact Nat.lt_trans hlt (hx.1 e he)
    · split
      · next heq => exact List.pairwise_cons.2 ⟨fun e he => heq ▸ hx.1 e he, hx.2⟩
      · next hge hne =>
        refine List.pairwise_cons.2 ⟨fun e he => ?_, ih hx.2⟩
        rcases mem_put he with rfl | he
        · exact Nat.lt_of_le_of_ne (Nat.not_lt.1 hge) (Ne.symm hne)
        · exact hx.1 e he

theorem lookup_put (k : κ) (v : ν) (q : κ) (es : List (κ × ν)) :
    lookup q (put k v es) = if rank q = rank k then some v else lookup q es := by
  induction es with
  | nil => simp [put, lookup]
  | cons x rest ih =>
    unfold put
    split
    · simp [lookup]
    · split
      · next heq => by_cases hq : rank q = rank k <;> simp_all [lookup]
      · next hge hne =>
        rw [lookup, ih, lookup]
        by_cases hq : rank q = rank x.1
        · rw [if_pos hq, if_pos hq, if_neg (by omega)]
        · rw [if_neg hq, if_neg hq]

theorem lookup_without (k q : κ) (es : List (κ × ν)) :
    lookup q (without k es) = if rank q = rank k then none else lookup q es := by
  induction es with
  | nil => simp [without, lookup]
  | cons x rest ih =>
    unfold without at ih ⊢
    by_cases hk : rank k = rank x.1
    · rw [List.filter_cons_of_neg (by simp [hk]), ih, lookup, hk]
      by_cases hq : rank q = rank x.1 <;> simp [hq]
    · rw [List.filter_cons_of_pos (by simp [hk]), lookup, lookup, ih]
      by_cases hq : rank q = rank x.1
      · rw [if_pos hq, if_pos hq, if_neg (by omega)]
      · rw [if_neg hq, if_neg hq]

theorem mem_of_lookup {k : κ} {v : ν} {es : List (κ × ν)} (h : lookup k es = some v) :
    (k, v) ∈ es := by
  induction es with
  | nil => cases h
  | cons x rest ih =>
    rw [lookup] at h
    split at h
    · next heq =>
      cases h
      have hkey : k = x.1 := eq_of_rank_eq heq
      rw [hkey]
      exact List.mem_cons_self
    · exact List.mem_cons_of_mem x (ih h)

theorem lookup_of_mem {es : List (κ × ν)} (h : es.Pairwise fun a b => rank a.1 < rank b.1)
    {e : κ × ν} (he : e ∈ es) : lookup e.1 es = some e.2 := by
  induction es with
  | nil => cases he
  | cons x rest ih =>
    obtain ⟨hfirst, hrest⟩ := List.pairwise_cons.1 h
    rcases List.mem_cons.1 he with rfl | hmem
    · rw [lookup, if_pos rfl]
    · rw [lookup, if_neg (Nat.ne_of_gt (hfirst e hmem)), ih hrest hmem]

/-- Sorted lists with the same look-ups are the same list. -/
theorem eq_of_lookup_eq {es fs : List (κ × ν)}
    (he : es.Pairwise fun a b => rank a.1 < rank b.1)
    (hf : fs.Pairwise fun a b => rank a.1 < rank b.1)
    (h : ∀ k, lookup k es = lookup k fs) : es = fs := by
  induction es generalizing fs with
  | nil =>
    cases fs with
    | nil => rfl
    | cons f fs => simpa [lookup] using h f.1
  | cons e es ih =>
    obtain ⟨he1, he2⟩ := List.pairwise_cons.1 he
    cases fs with
    | nil => simpa [lookup] using h e.1
    | cons f fs =>
      obtain ⟨hf1, hf2⟩ := List.pairwise_cons.1 hf
      have absent : ∀ {x : κ} {l : List (κ × ν)}, (∀ y ∈ l, rank x < rank y.1) →
          lookup x l = none :=
        fun hl => lookup_eq_none fun y hy => Nat.ne_of_lt (hl y hy)
      have hrank : rank e.1 = rank f.1 := by
        rcases Nat.lt_trichotomy (rank e.1) (rank f.1) with hlt | heq | hgt
        · have hn : lookup e.1 (f :: fs) = none := absent fun y hy => by
            rcases List.mem_cons.1 hy with rfl | hy
            · exact hlt
            · exact Nat.lt_trans hlt (hf1 y hy)
          rw [← h e.1, lookup, if_pos rfl] at hn
          simp at hn
        · exact heq
        · have hn : lookup f.1 (e :: es) = none := absent fun y hy => by
            rcases List.mem_cons.1 hy with rfl | hy
            · exact hgt
            · exact Nat.lt_trans hgt (he1 y hy)
          rw [h f.1, lookup, if_pos rfl] at hn
          simp at hn
      have hkey : e.1 = f.1 := eq_of_rank_eq hrank
      have hval : e.2 = f.2 := by simpa [lookup, hrank] using h e.1
      have htail : es = fs := ih he2 hf2 fun k => by
        by_cases hk : rank k = rank e.1
        · rw [absent fun y hy => by rw [hk]; exact he1 y hy,
            absent fun y hy => by rw [hk, hrank]; exact hf1 y hy]
        · simpa [lookup, hk, ← hrank] using h k
      rw [Prod.ext hkey hval, htail]

/-! ## Maps -/

/-- The map without entries. -/
def empty : SortedMap κ ν := ⟨[], List.Pairwise.nil⟩

instance : Inhabited (SortedMap κ ν) := ⟨empty⟩

/-- The value at a key. -/
def get? (m : SortedMap κ ν) (k : κ) : Option ν := lookup k m.entries

/-- Whether the key has a value. -/
def contains (m : SortedMap κ ν) (k : κ) : Bool := (m.get? k).isSome

/-- Gives the key a value, in the place of one it may have. -/
def insert (m : SortedMap κ ν) (k : κ) (v : ν) : SortedMap κ ν :=
  ⟨put k v m.entries, sorted_put m.sorted⟩

/-- Takes the value of the key away. -/
def erase (m : SortedMap κ ν) (k : κ) : SortedMap κ ν :=
  ⟨without k m.entries, m.sorted.filter _⟩

/-- The keys in order. -/
def keys (m : SortedMap κ ν) : List κ := m.entries.map (·.1)

/-- The map of a list of entries, of which the later ones win. -/
def ofList (es : List (κ × ν)) : SortedMap κ ν := es.foldl (fun m e => m.insert e.1 e.2) empty

/-- The entries of both maps, those of the second winning. -/
def overlay (lower upper : SortedMap κ ν) : SortedMap κ ν :=
  upper.entries.foldl (fun m e => m.insert e.1 e.2) lower

@[simp] theorem get?_empty (k : κ) : (empty : SortedMap κ ν).get? k = none := rfl

theorem get?_insert (m : SortedMap κ ν) (k q : κ) (v : ν) :
    (m.insert k v).get? q = if rank q = rank k then some v else m.get? q := lookup_put k v q _

theorem get?_erase (m : SortedMap κ ν) (k q : κ) :
    (m.erase k).get? q = if rank q = rank k then none else m.get? q := lookup_without k q _

@[simp] theorem get?_insert_self (m : SortedMap κ ν) (k : κ) (v : ν) :
    (m.insert k v).get? k = some v := by simp [get?_insert]

@[simp] theorem get?_erase_self (m : SortedMap κ ν) (k : κ) : (m.erase k).get? k = none := by
  simp [get?_erase]

theorem get?_insert_of_ne (m : SortedMap κ ν) {k q : κ} (v : ν) (h : q ≠ k) :
    (m.insert k v).get? q = m.get? q := by
  rw [get?_insert, if_neg fun hr => h (eq_of_rank_eq hr)]

theorem get?_erase_of_ne (m : SortedMap κ ν) {k q : κ} (h : q ≠ k) :
    (m.erase k).get? q = m.get? q := by
  rw [get?_erase, if_neg fun hr => h (eq_of_rank_eq hr)]

/-- What is said of all answers is said of all entries. -/
theorem forall_get?_iff {m : SortedMap κ ν} {P : κ → ν → Prop} :
    (∀ k v, m.get? k = some v → P k v) ↔ ∀ e ∈ m.entries, P e.1 e.2 :=
  ⟨fun h e he => h e.1 e.2 (lookup_of_mem m.sorted he), fun h k v hv => h (k, v) (mem_of_lookup hv)⟩

/-- Maps that answer every look-up alike are equal. -/
theorem ext_get? {m n : SortedMap κ ν} (h : ∀ k, m.get? k = n.get? k) : m = n :=
  ext_entries (eq_of_lookup_eq m.sorted n.sorted h)

/-! ## Going through the entries

A loop over the entries that changes, for each, what is seen at its key and nothing else, changes
what is seen at a key once, by the value there. -/

section Fold

variable {σ γ : Type} (view : σ → κ → γ) (act : σ → κ × ν → σ) (change : ν → γ → γ)

theorem foldl_sorted (hself : ∀ s k v, view (act s (k, v)) k = change v (view s k))
    (hother : ∀ s k v q, q ≠ k → view (act s (k, v)) q = view s q) (q : κ)
    {es : List (κ × ν)} (hsorted : es.Pairwise fun a b => rank a.1 < rank b.1) (s : σ) :
    view (es.foldl act s) q = ((lookup q es).map fun v => change v (view s q)).getD (view s q) := by
  induction es generalizing s with
  | nil => rfl
  | cons e rest ih =>
    obtain ⟨hfirst, hrest⟩ := List.pairwise_cons.1 hsorted
    rw [List.foldl_cons, ih hrest, lookup]
    by_cases hq : rank q = rank e.1
    · have hkey : q = e.1 := eq_of_rank_eq hq
      -- The keys behind it are larger, so the loop does not come back to this one.
      have hnone : lookup q rest = none := lookup_eq_none fun x hx => by
        rw [hq]
        exact Nat.ne_of_lt (hfirst x hx)
      rw [hnone, if_pos hq, hkey]
      exact hself s e.1 e.2
    · have hne : q ≠ e.1 := fun h => hq (congrArg rank h)
      rw [if_neg hq, hother s e.1 e.2 q hne]

theorem foldl_entries (hself : ∀ s k v, view (act s (k, v)) k = change v (view s k))
    (hother : ∀ s k v q, q ≠ k → view (act s (k, v)) q = view s q) (m : SortedMap κ ν) (s : σ)
    (q : κ) :
    view (m.entries.foldl act s) q =
      ((m.get? q).map fun v => change v (view s q)).getD (view s q) :=
  foldl_sorted view act change hself hother q m.sorted s

end Fold

/-- The upper map answers first. -/
theorem get?_overlay (lower upper : SortedMap κ ν) (k : κ) :
    (lower.overlay upper).get? k = (upper.get? k).or (lower.get? k) := by
  have hfold : (lower.overlay upper).get? k =
      ((upper.get? k).map some).getD (lower.get? k) :=
    foldl_entries get? (fun (m : SortedMap κ ν) e => m.insert e.1 e.2) (fun v _ => some v)
      (fun m k v => m.get?_insert_self k v) (fun m k v q hq => m.get?_insert_of_ne v hq)
      upper lower k
  rw [hfold]
  cases upper.get? k with
  | none => rfl
  | some v => rfl

/-! ## The keys -/

theorem mem_keys (m : SortedMap κ ν) (k : κ) : k ∈ m.keys ↔ m.contains k = true := by
  rw [keys, List.mem_map, contains, Option.isSome_iff_exists]
  constructor
  · rintro ⟨e, he, rfl⟩
    exact ⟨e.2, lookup_of_mem m.sorted he⟩
  · rintro ⟨v, hv⟩
    exact ⟨(k, v), mem_of_lookup hv, rfl⟩

theorem lookup_map_unit (k : κ) (es : List (κ × ν)) :
    lookup k (es.map fun e => (e.1, ())) = (lookup k es).map fun _ => () := by
  induction es with
  | nil => rfl
  | cons e rest ih =>
    rw [List.map_cons, lookup, lookup, ih]
    split <;> rfl

/-- The keys are known by which there are. -/
theorem keys_congr {m n : SortedMap κ ν} (h : ∀ k, m.contains k = n.contains k) :
    m.keys = n.keys := by
  have hsorted : ∀ m : SortedMap κ ν,
      (m.entries.map fun e => (e.1, ())).Pairwise fun a b => rank a.1 < rank b.1 :=
    fun m => List.pairwise_map.2 m.sorted
  -- With nothing at the keys the two maps are the same.
  have hentries : m.entries.map (fun e => (e.1, ())) = n.entries.map fun e => (e.1, ()) := by
    apply eq_of_lookup_eq (hsorted m) (hsorted n)
    intro k
    rw [lookup_map_unit, lookup_map_unit]
    have hk : (lookup k m.entries).isSome = (lookup k n.entries).isSome := h k
    cases hm : lookup k m.entries with
    | none =>
      rw [hm, Option.isSome_none] at hk
      rw [Option.isNone_iff_eq_none.1 (Option.isSome_eq_false_iff.1 hk.symm)]
    | some v =>
      rw [hm, Option.isSome_some] at hk
      obtain ⟨v', hv'⟩ := Option.isSome_iff_exists.1 hk.symm
      rw [hv']
      rfl
  have hkeys : ∀ m : SortedMap κ ν,
      m.keys = (m.entries.map fun e => (e.1, ())).map (·.1) := fun m => by
    rw [List.map_map]
    rfl
  rw [hkeys, hkeys, hentries]

end SortedMap

end TwinLedger
