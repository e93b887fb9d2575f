/-
ClassGraph.Proofs.Walk.Descent — going down a tree, one directory after
another.

A descent takes the entries of a directory by name, whatever the order in
which they are listed, and goes down into each directory where it meets it;
a link is passed over, whatever it leads to. The main statements:

  * `mem_descend`            — it comes upon the files that are reached
                               through directories alone;
  * `descend_pairwise`       — in increasing order of the segments that lead
                               to them, though it only ever compares the
                               names in one directory;
  * `descend_eq_filesBelow`  — so these are the files below the directory,
                               in the order of their places.
-/
import ClassGraph.Proofs.Storage.Outline

namespace ClassGraph

namespace Storage

variable {s : Storage} {listing : Place → List Segment} {place : Place} {name : Segment}
  {segments : List Segment} {e : Entry}

/-! ## §1 Through directories alone -/

/-- `segments` lead from a place down to a file, through directories alone. -/
inductive Reaches (s : Storage) : Place → List Segment → Prop where
  | file {place : Place} {name : Segment} {content : Bytes} {runnable : Bool} :
      s.at? (place ++ [name]) = some (.file content runnable) → Reaches s place [name]
  | down {place : Place} {name : Segment} {segments : List Segment} :
      s.at? (place ++ [name]) = some .directory → Reaches s (place ++ [name]) segments →
      Reaches s place (name :: segments)

theorem Reaches.file_at (h : s.Reaches place segments) : segments ≠ [] ∧
    ∃ content runnable, s.at? (place ++ segments) = some (.file content runnable) := by
  induction h with
  | @file place name content runnable hfile =>
    exact ⟨List.cons_ne_nil _ _, content, runnable, hfile⟩
  | @down place name segments _ _ ih =>
    obtain ⟨-, content, runnable, hfile⟩ := ih
    refine ⟨List.cons_ne_nil _ _, content, runnable, ?_⟩
    rwa [List.append_assoc, List.singleton_append] at hfile

/-- What lies above a file are directories. -/
theorem reaches_of_file {content : Bytes} {runnable : Bool} (hne : segments ≠ [])
    (hfile : s.at? (place ++ segments) = some (.file content runnable)) :
    s.Reaches place segments := by
  induction segments generalizing place with
  | nil => exact absurd rfl hne
  | cons name rest ih =>
    by_cases hr : rest = []
    · subst hr
      exact .file hfile
    · rw [← List.singleton_append, ← List.append_assoc] at hfile
      exact .down (directory_above hfile hr) (ih hr hfile)

/-- The files below a place are those that are reached from it. -/
theorem mem_filesBelow_iff_reaches : segments ∈ s.filesBelow place ↔ s.Reaches place segments := by
  rw [mem_filesBelow]
  constructor
  · rintro ⟨hne, content, runnable, hfile⟩
    exact reaches_of_file hne hfile
  · exact Reaches.file_at

/-! ## §2 Directories as they are listed -/

/-- `listing` gives the names in every directory, each once, in some order. -/
structure Lists (s : Storage) (listing : Place → List Segment) : Prop where
  nodup : ∀ place, (listing place).Nodup
  mem : ∀ place name, name ∈ listing place ↔ ∃ e, s.at? (place ++ [name]) = some e

/-- The name of an entry that lies in a directory, and not deeper. -/
def nameIn? (place other : Place) : Option Segment :=
  match below? place other with
  | some [name] => some name
  | _ => none

theorem nameIn?_eq_some {other : Place} :
    nameIn? place other = some name ↔ other = place ++ [name] := by
  unfold nameIn?
  constructor
  · intro h
    split at h
    · next hbelow =>
      cases h
      exact (below?_eq_some.1 hbelow).1
    · cases h
  · rintro rfl
    rw [below?_eq_some.2 ⟨rfl, List.cons_ne_nil _ _⟩]

/-- The names in a directory, as the tree holds them. -/
def namesIn (s : Storage) (place : Place) : List Segment := s.entries.keys.filterMap (nameIn? place)

theorem lists_namesIn (s : Storage) : s.Lists s.namesIn where
  nodup := by
    intro place
    refine (SortedMap.nodup_keys s.entries).filterMap ?_
    intro other other' name h h'
    rw [nameIn?_eq_some.1 h, nameIn?_eq_some.1 h']
  mem := by
    intro place name
    rw [namesIn, List.mem_filterMap, at?, entryIn_append]
    constructor
    · rintro ⟨other, hother, hname⟩
      rw [nameIn?_eq_some.1 hname] at hother
      exact SortedMap.mem_keys_iff.1 hother
    · intro hentry
      exact ⟨place ++ [name], SortedMap.mem_keys_iff.2 hentry, nameIn?_eq_some.2 rfl⟩

/-- Names in their order, byte by byte. -/
def byName (names : List Segment) : List Segment := names.mergeSort fun a b => a ≤ b

theorem mem_byName {names : List Segment} : name ∈ byName names ↔ name ∈ names :=
  List.mem_mergeSort

theorem byName_pairwise {names : List Segment} (h : names.Nodup) :
    (byName names).Pairwise (· < ·) := by
  have htrans : ∀ a b c : Segment, decide (a ≤ b) = true → decide (b ≤ c) = true →
      decide (a ≤ c) = true := fun a b c hab hbc =>
    decide_eq_true (Std.le_trans (of_decide_eq_true hab) (of_decide_eq_true hbc))
  have htotal : ∀ a b : Segment, (decide (a ≤ b) || decide (b ≤ a)) = true := fun a b => by
    simpa using List.le_total a b
  have hsorted : (byName names).Pairwise fun a b => decide (a ≤ b) = true :=
    List.pairwise_mergeSort htrans htotal names
  have hnodup : (byName names).Nodup := (List.mergeSort_perm names _).nodup_iff.2 h
  exact (hsorted.and hnodup).imp fun ⟨hle, hne⟩ =>
    Std.lt_of_le_of_ne (of_decide_eq_true hle) hne

/-! ## §3 The descent -/

/-- The number of segments in all places together. -/
def totalLength (s : Storage) : Nat := s.entries.keys.flatten.length

theorem length_le_totalLength (h : s.at? (place ++ [name]) = some e) :
    place.length < s.totalLength := by
  rw [at?, entryIn_append] at h
  have hkey : place ++ [name] ∈ s.entries.keys := SortedMap.mem_keys_iff.2 ⟨e, h⟩
  have hle := (List.sublist_flatten_of_mem hkey).length_le
  rwa [List.length_append] at hle

/-- The files that a descent from a place comes upon, by the segments that lead to them. -/
def descend (s : Storage) (listing : Place → List Segment) (place : Place) : List (List Segment) :=
  (byName (listing place)).flatMap fun name =>
    match h : s.at? (place ++ [name]) with
    | some (.file ..) => [[name]]
    | some .directory =>
      have := length_le_totalLength h
      (descend s listing (place ++ [name])).map (name :: ·)
    | some (.link _) => []
    | none => []
termination_by s.totalLength - place.length
decreasing_by
  rw [List.length_append, List.length_singleton]
  omega

/-- What stands behind one name of a directory, with what a descent from there comes upon. -/
def behindName (s : Storage) (place : Place) (name : Segment) (below : List (List Segment)) :
    List (List Segment) :=
  match s.at? (place ++ [name]) with
  | some (.file ..) => [[name]]
  | some .directory => below.map (name :: ·)
  | some (.link _) => []
  | none => []

theorem descend_eq (s : Storage) (listing : Place → List Segment) (place : Place) :
    s.descend listing place = (byName (listing place)).flatMap fun name =>
      s.behindName place name (s.descend listing (place ++ [name])) := by
  rw [descend]
  refine List.flatMap_congr fun name _ => ?_
  unfold behindName
  split <;> simp [*]

theorem mem_behindName {below : List (List Segment)} :
    segments ∈ s.behindName place name below ↔
      (∃ content runnable, s.at? (place ++ [name]) = some (.file content runnable)) ∧
          segments = [name] ∨
        s.at? (place ++ [name]) = some .directory ∧ ∃ rest ∈ below, segments = name :: rest := by
  unfold behindName
  split
  · next hfile => simp [hfile]
  · next hdir => simp [hdir, eq_comm]
  · next hlink => simp [hlink]
  · next hnone => simp [hnone]

theorem exists_rest_of_behindName {below : List (List Segment)}
    (h : segments ∈ s.behindName place name below) : ∃ rest, segments = name :: rest := by
  rcases mem_behindName.1 h with ⟨-, rfl⟩ | ⟨-, rest, -, rfl⟩
  · exact ⟨[], rfl⟩
  · exact ⟨rest, rfl⟩

/-- A descent comes upon the files that are reached through directories alone. -/
theorem mem_descend (hlists : s.Lists listing) :
    segments ∈ s.descend listing place ↔ s.Reaches place segments := by
  constructor
  · intro h
    fun_induction descend s listing place generalizing segments with
    | case1 place ih =>
      rw [← descend, descend_eq] at h
      obtain ⟨name, -, h⟩ := List.mem_flatMap.1 h
      rcases mem_behindName.1 h with ⟨⟨content, runnable, hfile⟩, rfl⟩ | ⟨hdir, rest, hrest, rfl⟩
      · exact .file hfile
      · exact .down hdir (ih name hdir hrest)
  · intro h
    induction h with
    | @file place name content runnable hfile =>
      rw [descend_eq]
      exact List.mem_flatMap.2 ⟨name, mem_byName.2 ((hlists.mem place name).2 ⟨_, hfile⟩),
        mem_behindName.2 (.inl ⟨⟨content, runnable, hfile⟩, rfl⟩)⟩
    | @down place name segments hdir _ ih =>
      rw [descend_eq]
      exact List.mem_flatMap.2 ⟨name, mem_byName.2 ((hlists.mem place name).2 ⟨_, hdir⟩),
        mem_behindName.2 (.inr ⟨hdir, segments, ih, rfl⟩)⟩

theorem behindName_pairwise {below : List (List Segment)}
    (h : s.at? (place ++ [name]) = some .directory → below.Pairwise (· < ·)) :
    (s.behindName place name below).Pairwise (· < ·) := by
  unfold behindName
  split
  · exact List.pairwise_singleton ..
  · next hdir =>
    exact List.pairwise_map.2 ((h hdir).imp fun hlt => List.cons_lt_cons_iff.2 (.inr ⟨rfl, hlt⟩))
  · exact List.Pairwise.nil
  · exact List.Pairwise.nil

/-- The files come in increasing order. -/
theorem descend_pairwise (hlists : s.Lists listing) (place : Place) :
    (s.descend listing place).Pairwise (· < ·) := by
  fun_induction descend s listing place with
  | case1 place ih =>
    rw [← descend, descend_eq]
    refine List.pairwise_flatMap.2 ⟨fun name _ => behindName_pairwise (ih name), ?_⟩
    -- all that stands behind one name comes before all that stands behind a later one
    refine (byName_pairwise (hlists.nodup place)).imp fun hlt => ?_
    intro segments hsegments segments' hsegments'
    obtain ⟨rest, rfl⟩ := exists_rest_of_behindName hsegments
    obtain ⟨rest', rfl⟩ := exists_rest_of_behindName hsegments'
    exact List.cons_lt_cons_iff.2 (.inl hlt)

/-- A descent comes upon the files below a directory in the order of their places. -/
theorem descend_eq_filesBelow (hlists : s.Lists listing) (place : Place) :
    s.descend listing place = s.filesBelow place :=
  eq_of_mem_iff_of_pairwise (descend_pairwise hlists place) (filesBelow_pairwise s place)
    fun _ => (mem_descend hlists).trans mem_filesBelow_iff_reaches.symm

end Storage

end ClassGraph
