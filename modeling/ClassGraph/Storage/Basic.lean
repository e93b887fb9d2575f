/-
ClassGraph.Storage.Basic — a tree of files, and what may be done to it.

An entry lies at a place, the segments that lead to it from the top. The
entries are kept by place, in order, so a directory comes before what it
holds and its entries follow by name. The type keeps every entry grounded:
what it lies in is a directory. Main statements: `at?_put_self` and
`at?_put_of_ne` — putting changes one place.
-/
import ClassGraph.Path
import ClassGraph.SortedMap

namespace ClassGraph

/-- The segments that lead to an entry from the top. -/
abbrev Place := List Segment

/-- What can lie at a place. -/
inductive Entry where
  /-- A file; `runnable` where it may be run as a program. -/
  | file (content : Bytes) (runnable : Bool)
  /-- A symbolic link. -/
  | link (target : Path)
  | directory
  deriving DecidableEq

/-- What lies at a place; the top is a directory. -/
def entryIn (entries : SortedMap Place Entry) (place : Place) : Option Entry :=
  if place = [] then some .directory else entries.find? place

/-- Whether every entry lies in a directory. -/
def Grounded (entries : SortedMap Place Entry) : Prop :=
  ∀ parent name, entryIn entries (parent ++ [name]) ≠ none →
    entryIn entries parent = some .directory

/-- A tree of files. -/
structure Storage where
  entries : SortedMap Place Entry
  grounded : Grounded entries

theorem entryIn_append (entries : SortedMap Place Entry) (parent : Place) (name : Segment) :
    entryIn entries (parent ++ [name]) = entries.find? (parent ++ [name]) := by
  simp [entryIn]

theorem entryIn_upsert_self (entries : SortedMap Place Entry) (parent : Place) (name : Segment)
    (e : Entry) : entryIn (entries.insert (parent ++ [name]) e) (parent ++ [name]) = some e := by
  rw [entryIn_append, SortedMap.insert, SortedMap.find?_upsert_self]

theorem entryIn_upsert_of_ne (entries : SortedMap Place Entry) {place other : Place}
    (h : other ≠ place) (e : Entry) :
    entryIn (entries.insert place e) other = entryIn entries other := by
  unfold entryIn
  rw [SortedMap.insert, SortedMap.find?_upsert_of_ne _ h]

namespace Storage

def empty : Storage := ⟨SortedMap.empty, fun _ _ h => by simp [entryIn] at h⟩

instance : Inhabited Storage := ⟨empty⟩

/-- What lies at a place. -/
def at? (s : Storage) (place : Place) : Option Entry := entryIn s.entries place

/-- Whether an entry may be put at a place: into a directory, and not over one. -/
def allows (s : Storage) (parent : Place) (name : Segment) : Bool :=
  s.at? parent = some .directory && s.at? (parent ++ [name]) != some .directory

theorem append_singleton_ne (p : Place) (a : Segment) : p ≠ p ++ [a] := fun h => by
  have := congrArg List.length h
  simp at this

theorem grounded_insert {s : Storage} {parent : Place} {name : Segment} {e : Entry}
    (h : s.allows parent name = true) : Grounded (s.entries.insert (parent ++ [name]) e) := by
  simp only [allows, Bool.and_eq_true, decide_eq_true_eq, bne_iff_ne, ne_eq] at h
  intro above child hchild
  by_cases hc : above ++ [child] = parent ++ [name]
  · obtain ⟨rfl, -⟩ := List.append_inj' hc rfl
    rw [entryIn_upsert_of_ne _ (append_singleton_ne _ _)]
    exact h.1
  · rw [entryIn_upsert_of_ne _ hc] at hchild
    have hdir := s.grounded above child hchild
    have hne : above ≠ parent ++ [name] := fun he => h.2 (he ▸ hdir)
    rw [entryIn_upsert_of_ne _ hne]
    exact hdir

/-- The tree with an entry at a place, where it may be put there. -/
def put (s : Storage) (parent : Place) (name : Segment) (e : Entry) : Storage :=
  if h : s.allows parent name = true then
    ⟨s.entries.insert (parent ++ [name]) e, grounded_insert h⟩
  else s

theorem grounded_filter (s : Storage) (place : Place) :
    Grounded (s.entries.filter fun p _ => !place.isPrefixOf p) := by
  intro parent name h
  rw [entryIn_append, SortedMap.find?_filter] at h
  cases hf : s.entries.find? (parent ++ [name]) with
  | none => rw [hf] at h; exact absurd rfl h
  | some e =>
    rw [hf] at h
    have hkeep : place.isPrefixOf (parent ++ [name]) = false := by
      cases hp : place.isPrefixOf (parent ++ [name]) with
      | false => rfl
      | true => simp [hp] at h
    have hparent : place.isPrefixOf parent = false := by
      cases hp : place.isPrefixOf parent with
      | false => rfl
      | true =>
        rw [List.isPrefixOf_iff_prefix] at hp
        have := List.isPrefixOf_iff_prefix.2 (hp.trans (List.prefix_append parent [name]))
        rw [this] at hkeep
        cases hkeep
    have hdir := s.grounded parent name (by rw [entryIn_append, hf]; simp)
    unfold entryIn at hdir ⊢
    split at hdir
    · next hp => simp [hp]
    · next hp => rw [if_neg hp, SortedMap.find?_filter, hdir]; simp [hparent]

/-- The tree without a place and what lies below it. -/
def remove (s : Storage) (place : Place) : Storage :=
  ⟨s.entries.filter fun p _ => !place.isPrefixOf p, s.grounded_filter place⟩

theorem at?_put_self {s : Storage} {parent : Place} {name : Segment} {e : Entry}
    (h : s.allows parent name = true) : (s.put parent name e).at? (parent ++ [name]) = some e := by
  unfold put at?
  rw [dif_pos h]
  exact entryIn_upsert_self s.entries parent name e

theorem at?_put_of_ne {s : Storage} {parent other : Place} {name : Segment} {e : Entry}
    (h : other ≠ parent ++ [name]) : (s.put parent name e).at? other = s.at? other := by
  unfold put at?
  split
  · exact entryIn_upsert_of_ne s.entries h e
  · rfl

end Storage

end ClassGraph
