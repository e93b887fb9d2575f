/-
ClassGraph.SortedMap — finite maps, kept in the order of their keys.

The entries stand in strictly increasing order of their keys, and the order
is part of the type, so two maps with the same bindings are equal
(`ext_find?`). There is one way to change a map, `upsert`, and one way to
thin it out, `filterMap`; both are described by what they do to `find?`:

  * `find?_upsert_self`, `find?_upsert_of_ne` — the key changes, no other;
  * `find?_filterMap` — each binding is judged on its own.

Lists are compared element by element, a list coming before its extensions.
For text that is also the order of the encoded bytes.
-/
import ClassGraph.Text.Basic

namespace ClassGraph

/-! ## §1 Orders -/

/-- An order in which any two different keys are comparable. -/
class StrictOrder (κ : Type) [LT κ] : Prop where
  irrefl (a : κ) : ¬ a < a
  trans {a b c : κ} : a < b → b < c → a < c
  eq_of_not_lt {a b : κ} : ¬ a < b → ¬ b < a → a = b

instance {α : Type} [LT α] [DecidableLT α] [Std.Irrefl (fun a b : α => a < b)]
    [Trans (fun a b : α => a < b) (fun a b : α => a < b) (fun a b : α => a < b)]
    [Std.Trichotomous (fun a b : α => a < b)] : StrictOrder (List α) where
  irrefl := List.lt_irrefl
  trans := List.lt_trans
  eq_of_not_lt h h' := List.le_antisymm (List.not_lt.1 h') (List.not_lt.1 h)

/-! ## §2 Bindings in order -/

/-- The keys increase strictly. -/
def InOrder {κ υ : Type} [LT κ] (entries : List (κ × υ)) : Prop :=
  entries.Pairwise fun a b => a.1 < b.1

/-- A finite map, its bindings in the order of their keys. -/
structure SortedMap (κ υ : Type) [LT κ] where
  /-- The bindings, by increasing key. -/
  toList : List (κ × υ)
  inOrder : InOrder toList

namespace SortedMap

variable {κ υ ω : Type} [LT κ]

instance [DecidableEq κ] [DecidableEq υ] : DecidableEq (SortedMap κ υ) := fun m m' =>
  decidable_of_iff (m.toList = m'.toList)
    ⟨fun h => by cases m; cases m'; simp_all, fun h => h ▸ rfl⟩

@[ext] theorem ext {m m' : SortedMap κ υ} (h : m.toList = m'.toList) : m = m' := by
  cases m
  cases m'
  simp_all

def empty : SortedMap κ υ := ⟨[], List.Pairwise.nil⟩

instance : Inhabited (SortedMap κ υ) := ⟨empty⟩

/-- The value of a key among bindings in order. -/
def lookup [DecidableEq κ] (k : κ) : List (κ × υ) → Option υ
  | [] => none
  | (k', v) :: rest => if k = k' then some v else lookup k rest

def find? [DecidableEq κ] (m : SortedMap κ υ) (k : κ) : Option υ := lookup k m.toList

def contains [DecidableEq κ] (m : SortedMap κ υ) (k : κ) : Bool := (m.find? k).isSome

def size (m : SortedMap κ υ) : Nat := m.toList.length

def isEmpty (m : SortedMap κ υ) : Bool := m.toList.isEmpty

def keys (m : SortedMap κ υ) : List κ := m.toList.map (·.1)

def values (m : SortedMap κ υ) : List υ := m.toList.map (·.2)

/-- The bindings with `k` bound to `f` of what it was bound to. -/
def upsertIn [DecidableEq κ] [DecidableLT κ] (k : κ) (f : Option υ → υ) :
    List (κ × υ) → List (κ × υ)
  | [] => [(k, f none)]
  | (k', v) :: rest =>
    if k < k' then (k, f none) :: (k', v) :: rest
    else if k = k' then (k', f (some v)) :: rest
    else (k', v) :: upsertIn k f rest

theorem mem_keys_upsertIn [DecidableEq κ] [DecidableLT κ] {k : κ} {f : Option υ → υ}
    {l : List (κ × υ)} {p : κ × υ}
    (h : p ∈ upsertIn k f l) : p.1 = k ∨ p.1 ∈ l.map (·.1) := by
  induction l with
  | nil =>
    simp [upsertIn] at h
    simp [h]
  | cons q rest ih =>
    obtain ⟨k', v⟩ := q
    unfold upsertIn at h
    split at h
    · rcases List.mem_cons.1 h with rfl | h
      · exact .inl rfl
      · exact .inr (List.mem_map_of_mem h)
    · split at h
      · rcases List.mem_cons.1 h with rfl | h
        · exact .inr (by simp)
        · exact .inr (List.mem_cons_of_mem _ (List.mem_map_of_mem h))
      · rcases List.mem_cons.1 h with rfl | h
        · exact .inr (by simp)
        · exact (ih h).imp id (List.mem_cons_of_mem _)

theorem inOrder_upsertIn [DecidableEq κ] [DecidableLT κ] [StrictOrder κ] {k : κ}
    {f : Option υ → υ} {l : List (κ × υ)} (h : InOrder l) :
    InOrder (upsertIn k f l) := by
  induction l with
  | nil => exact List.pairwise_singleton _ _
  | cons q rest ih =>
    obtain ⟨k', v⟩ := q
    obtain ⟨hk, hr⟩ := List.pairwise_cons.1 h
    unfold upsertIn
    split
    · next hlt =>
      refine List.pairwise_cons.2 ⟨fun p hp => ?_, h⟩
      rcases List.mem_cons.1 hp with rfl | hp
      · exact hlt
      · exact StrictOrder.trans hlt (hk p hp)
    · split
      · exact List.pairwise_cons.2 ⟨hk, hr⟩
      · next hlt hne =>
        refine List.pairwise_cons.2 ⟨fun p hp => ?_, ih hr⟩
        rcases mem_keys_upsertIn hp with hp | hp
        · rw [hp]
          by_cases hgt : k' < k
          · exact hgt
          · exact absurd (StrictOrder.eq_of_not_lt hlt hgt) hne
        · obtain ⟨q, hq, he⟩ := List.mem_map.1 hp
          rw [← he]
          exact hk q hq

variable [DecidableEq κ] [DecidableLT κ] [StrictOrder κ]

/-- The map in which `k` is bound to `f` of what it was bound to. -/
def upsert (m : SortedMap κ υ) (k : κ) (f : Option υ → υ) : SortedMap κ υ :=
  ⟨upsertIn k f m.toList, inOrder_upsertIn m.inOrder⟩

def insert (m : SortedMap κ υ) (k : κ) (v : υ) : SortedMap κ υ := m.upsert k fun _ => v

/-- The bindings that `f` keeps, with the values that it gives them. -/
def filterMapIn (f : κ → υ → Option ω) : List (κ × υ) → List (κ × ω)
  | [] => []
  | (k, v) :: rest =>
    match f k v with
    | some w => (k, w) :: filterMapIn f rest
    | none => filterMapIn f rest

omit [LT κ] [DecidableEq κ] [DecidableLT κ] [StrictOrder κ] in
theorem mem_keys_filterMapIn {f : κ → υ → Option ω} {l : List (κ × υ)} {p : κ × ω}
    (h : p ∈ filterMapIn f l) : p.1 ∈ l.map (·.1) := by
  induction l with
  | nil => simp [filterMapIn] at h
  | cons q rest ih =>
    obtain ⟨k, v⟩ := q
    unfold filterMapIn at h
    split at h
    · rcases List.mem_cons.1 h with rfl | h
      · simp
      · exact List.mem_cons_of_mem _ (ih h)
    · exact List.mem_cons_of_mem _ (ih h)

omit [DecidableEq κ] [DecidableLT κ] [StrictOrder κ] in
theorem inOrder_filterMapIn {f : κ → υ → Option ω} {l : List (κ × υ)} (h : InOrder l) :
    InOrder (filterMapIn f l) := by
  induction l with
  | nil => exact List.Pairwise.nil
  | cons q rest ih =>
    obtain ⟨k, v⟩ := q
    obtain ⟨hk, hr⟩ := List.pairwise_cons.1 h
    unfold filterMapIn
    split
    · refine List.pairwise_cons.2 ⟨fun p hp => ?_, ih hr⟩
      obtain ⟨q, hq, he⟩ := List.mem_map.1 (mem_keys_filterMapIn hp)
      rw [← he]
      exact hk q hq
    · exact ih hr

/-- The bindings that `f` keeps, with the values that it gives them. -/
def filterMap (f : κ → υ → Option ω) (m : SortedMap κ υ) : SortedMap κ ω :=
  ⟨filterMapIn f m.toList, inOrder_filterMapIn m.inOrder⟩

/-- The bindings that satisfy `p`. -/
def filter (p : κ → υ → Bool) (m : SortedMap κ υ) : SortedMap κ υ :=
  m.filterMap fun k v => if p k v then some v else none

/-! ## §3 What the operations do to a look-up -/

omit [DecidableLT κ] [StrictOrder κ] in
@[simp] theorem find?_empty (k : κ) : (empty : SortedMap κ υ).find? k = none := rfl

omit [DecidableLT κ] in
theorem lookup_eq_none_of_lt {k : κ} {l : List (κ × υ)} (h : ∀ p ∈ l, k < p.1) :
    lookup k l = none := by
  induction l with
  | nil => rfl
  | cons p rest ih =>
    have hp : k ≠ p.1 := fun e => StrictOrder.irrefl p.1 (e ▸ h p (List.mem_cons_self ..))
    simp only [lookup, if_neg hp]
    exact ih fun p' hp' => h p' (List.mem_cons_of_mem _ hp')

theorem lookup_upsertIn_self (k : κ) (f : Option υ → υ) (l : List (κ × υ)) (h : InOrder l) :
    lookup k (upsertIn k f l) = some (f (lookup k l)) := by
  induction l with
  | nil => simp [upsertIn, lookup]
  | cons q rest ih =>
    obtain ⟨k', v⟩ := q
    obtain ⟨hk, hr⟩ := List.pairwise_cons.1 h
    unfold upsertIn
    split
    · next hlt =>
      have hne : k ≠ k' := fun e => StrictOrder.irrefl k' (e ▸ hlt)
      have hnone : lookup k rest = none :=
        lookup_eq_none_of_lt fun p hp => StrictOrder.trans hlt (hk p hp)
      simp [lookup, if_neg hne, hnone]
    · split
      · next he => simp [lookup, he]
      · next hne => simp only [lookup, if_neg hne, ih hr]

omit [StrictOrder κ] in
theorem lookup_upsertIn_of_ne {k k₀ : κ} (hne : k₀ ≠ k) (f : Option υ → υ)
    (l : List (κ × υ)) : lookup k₀ (upsertIn k f l) = lookup k₀ l := by
  induction l with
  | nil => simp [upsertIn, lookup, hne]
  | cons q rest ih =>
    obtain ⟨k', v⟩ := q
    unfold upsertIn
    split
    · simp only [lookup, if_neg hne]
    · split
      · next he =>
        subst he
        simp only [lookup, if_neg hne]
      · simp only [lookup, ih]

@[simp] theorem find?_upsert_self (m : SortedMap κ υ) (k : κ) (f : Option υ → υ) :
    (m.upsert k f).find? k = some (f (m.find? k)) :=
  lookup_upsertIn_self k f m.toList m.inOrder

theorem find?_upsert_of_ne (m : SortedMap κ υ) {k k₀ : κ} (hne : k₀ ≠ k) (f : Option υ → υ) :
    (m.upsert k f).find? k₀ = m.find? k₀ :=
  lookup_upsertIn_of_ne hne f m.toList

omit [DecidableLT κ] in
theorem find?_filterMap (f : κ → υ → Option ω) (m : SortedMap κ υ) (k : κ) :
    (m.filterMap f).find? k = (m.find? k).bind (f k) := by
  obtain ⟨l, h⟩ := m
  show lookup k (filterMapIn f l) = (lookup k l).bind (f k)
  induction l with
  | nil => rfl
  | cons q rest ih =>
    obtain ⟨k', v⟩ := q
    obtain ⟨hk, hr⟩ := List.pairwise_cons.1 h
    unfold filterMapIn
    by_cases he : k = k'
    · subst he
      simp only [lookup, if_true, Option.bind_some]
      split
      · next w hw => simp [lookup, hw]
      · next hw =>
        rw [hw]
        apply lookup_eq_none_of_lt
        intro p hp
        obtain ⟨q, hq, he⟩ := List.mem_map.1 (mem_keys_filterMapIn hp)
        rw [← he]
        exact hk q hq
    · split
      · simp only [lookup, if_neg he, ih hr]
      · simp only [lookup, if_neg he, ih hr]

omit [DecidableLT κ] in
theorem find?_filter (p : κ → υ → Bool) (m : SortedMap κ υ) (k : κ) :
    (m.filter p).find? k = (m.find? k).filter (p k) := by
  rw [filter, find?_filterMap]
  cases m.find? k <;> rfl

omit [DecidableLT κ] in
theorem lookup_eq_some_iff {k : κ} {v : υ} {l : List (κ × υ)} (h : InOrder l) :
    lookup k l = some v ↔ (k, v) ∈ l := by
  induction l with
  | nil => simp [lookup]
  | cons q rest ih =>
    obtain ⟨k', v'⟩ := q
    obtain ⟨hk, hr⟩ := List.pairwise_cons.1 h
    by_cases he : k = k'
    · subst he
      have : (k, v) ∉ rest := fun hm => StrictOrder.irrefl k (hk _ hm)
      simp [lookup, this, eq_comm]
    · simp [lookup, he, ih hr]

omit [DecidableLT κ] in
/-- A binding is found exactly when it is listed. -/
theorem find?_eq_some_iff {m : SortedMap κ υ} {k : κ} {v : υ} :
    m.find? k = some v ↔ (k, v) ∈ m.toList :=
  lookup_eq_some_iff m.inOrder

omit [DecidableLT κ] in
/-- Maps that answer every look-up alike are equal. -/
theorem ext_find? {m m' : SortedMap κ υ} (h : ∀ k, m.find? k = m'.find? k) : m = m' := by
  apply SortedMap.ext
  obtain ⟨l, hl⟩ := m
  obtain ⟨l', hl'⟩ := m'
  have hmem : ∀ p, p ∈ l ↔ p ∈ l' := fun p => by
    have := h p.1
    rw [← lookup_eq_some_iff (k := p.1) (v := p.2) hl,
      ← lookup_eq_some_iff (k := p.1) (v := p.2) hl']
    simp only [find?] at this
    rw [this]
  clear h
  show l = l'
  induction l generalizing l' with
  | nil =>
    cases l' with
    | nil => rfl
    | cons p rest => exact absurd ((hmem p).2 (List.mem_cons_self ..)) (by simp)
  | cons p rest ih =>
    cases l' with
    | nil => exact absurd ((hmem p).1 (List.mem_cons_self ..)) (by simp)
    | cons p' rest' =>
      obtain ⟨hk, hr⟩ := List.pairwise_cons.1 hl
      obtain ⟨hk', hr'⟩ := List.pairwise_cons.1 hl'
      have he : p = p' := by
        rcases List.mem_cons.1 ((hmem p).1 (List.mem_cons_self ..)) with e | hm
        · exact e
        · rcases List.mem_cons.1 ((hmem p').2 (List.mem_cons_self ..)) with e | hm'
          · exact e.symm
          · exact absurd (StrictOrder.trans (hk' p hm) (hk p' hm')) (StrictOrder.irrefl _)
      subst he
      congr 1
      apply ih hr rest' hr'
      intro q
      constructor
      · intro hq
        rcases List.mem_cons.1 ((hmem q).1 (List.mem_cons_of_mem _ hq)) with e | hm
        · exact absurd (e ▸ hk q hq) (StrictOrder.irrefl _)
        · exact hm
      · intro hq
        rcases List.mem_cons.1 ((hmem q).2 (List.mem_cons_of_mem _ hq)) with e | hm
        · exact absurd (e ▸ hk' q hq) (StrictOrder.irrefl _)
        · exact hm

omit [DecidableLT κ] in
theorem mem_keys_iff {m : SortedMap κ υ} {k : κ} : k ∈ m.keys ↔ ∃ v, m.find? k = some v := by
  simp only [keys, List.mem_map, Prod.exists, exists_and_right, exists_eq_right,
    find?_eq_some_iff]

omit [DecidableEq κ] [DecidableLT κ] in
/-- No key is bound twice. -/
theorem nodup_keys (m : SortedMap κ υ) : m.keys.Nodup := by
  refine List.pairwise_map.2 (m.inOrder.imp ?_)
  intro a b hlt heq
  rw [heq] at hlt
  exact StrictOrder.irrefl b.1 hlt

omit [DecidableLT κ] in
theorem isEmpty_iff {m : SortedMap κ υ} : m.isEmpty = true ↔ ∀ k, m.find? k = none := by
  constructor
  · intro h k
    have hnil : m.toList = [] := List.isEmpty_iff.1 h
    rw [find?, hnil]
    rfl
  · intro h
    have hm : m = empty := ext_find? h
    rw [hm]
    rfl

omit [DecidableLT κ] in
/-- A map that is not empty binds some key. -/
theorem exists_find?_of_not_isEmpty {m : SortedMap κ υ} (h : ¬ m.isEmpty = true) :
    ∃ k v, m.find? k = some v := by
  refine Classical.byContradiction fun hnone => h (isEmpty_iff.2 fun k => ?_)
  cases hf : m.find? k with
  | none => rfl
  | some v => exact absurd ⟨k, v, hf⟩ hnone

omit [StrictOrder κ] in
theorem length_upsertIn_le (k : κ) (f : Option υ → υ) (l : List (κ × υ)) :
    (upsertIn k f l).length ≤ l.length + 1 := by
  induction l with
  | nil => simp [upsertIn]
  | cons q rest ih =>
    unfold upsertIn
    split
    · simp
    · split
      · simp
      · simp only [List.length_cons]
        omega

end SortedMap

/-! ## §4 Names as keys -/

abbrev NameMap (υ : Type) := SortedMap Text υ

/-- A finite set of names, in order. -/
abbrev NameSet := NameMap Unit

namespace NameSet

def add (s : NameSet) (k : Text) : NameSet := s.insert k ()

/-- The names of a list, each once and in order. -/
def ofList (names : List Text) : NameSet := names.foldl add SortedMap.empty

theorem mem_keys_add {s : NameSet} {k n : Text} : n ∈ (s.add k).keys ↔ n = k ∨ n ∈ s.keys := by
  simp only [SortedMap.mem_keys_iff, add, SortedMap.insert]
  by_cases h : n = k
  · subst h
    simp
  · simp [SortedMap.find?_upsert_of_ne _ h, h]

theorem mem_keys_foldl_add {names : List Text} {s : NameSet} {n : Text} :
    n ∈ (names.foldl add s).keys ↔ n ∈ s.keys ∨ n ∈ names := by
  induction names generalizing s with
  | nil => simp
  | cons k names ih =>
    rw [List.foldl_cons, ih, mem_keys_add, List.mem_cons]
    constructor
    · rintro ((h | h) | h)
      · exact .inr (.inl h)
      · exact .inl h
      · exact .inr (.inr h)
    · rintro (h | h | h)
      · exact .inl (.inr h)
      · exact .inl (.inl h)
      · exact .inr h

/-- The set of a list holds its names. -/
theorem mem_keys_ofList {names : List Text} {n : Text} : n ∈ (ofList names).keys ↔ n ∈ names := by
  rw [ofList, mem_keys_foldl_add]
  simp [SortedMap.keys, SortedMap.empty]

theorem length_keys_foldl_add_le (names : List Text) (s : NameSet) :
    (names.foldl add s).keys.length ≤ s.keys.length + names.length := by
  induction names generalizing s with
  | nil => simp
  | cons k names ih =>
    have hrest := ih (s.add k)
    have hadd := SortedMap.length_upsertIn_le k (fun _ => ()) s.toList
    have hkeys : (s.add k).keys.length ≤ s.keys.length + 1 := by
      simpa [add, SortedMap.insert, SortedMap.upsert, SortedMap.keys] using hadd
    rw [List.foldl_cons, List.length_cons]
    omega

/-- The set of a list is no larger than the list. -/
theorem length_keys_ofList_le (names : List Text) :
    (ofList names).keys.length ≤ names.length := by
  have h := length_keys_foldl_add_le names SortedMap.empty
  simpa [ofList, SortedMap.keys, SortedMap.empty] using h

end NameSet

end ClassGraph
