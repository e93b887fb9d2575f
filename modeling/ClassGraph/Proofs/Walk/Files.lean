/-
ClassGraph.Proofs.Walk.Files — the files of a walk.

What a walk comes upon does not depend on the selection of paths; what it
lists is that, less what the selection leaves out (`files_ofRoot`). Below a
directory it comes upon the class files of the tree that lie there behind no
closed directory (`filterMap_file?_visitsBelow`), and upon the closed
directories that are not themselves behind one (`mem_unvisited_visitsBelow`).
Whatever the root is, all else it can find is the root itself:
`mem_files_ofRoot`.
-/
import Mathlib.Data.List.Basic
import ClassGraph.Proofs.Storage.Following
import ClassGraph.Walk

namespace ClassGraph

/-! ## §1 Paths to directories -/

namespace Storage

variable {s : Storage} {here place p : Place} {segments : List Segment} {links : Nat} {path : Path}

/-- Where a path leads to a directory and its last segment is not followed, that is no link, so
following it leads there too. -/
theorem resolve_of_directory
    (h : s.resolve false links place segments = .ok (.existing p .directory)) (follow : Bool) :
    s.resolve follow links place segments = .ok (.existing p .directory) := by
  induction links, place, segments using resolve_induct with
  | reached hat =>
    cases h
    exact resolve_nil hat
  | idle hdir hidle ih =>
    rw [resolve_idle hdir hidle]
    exact ih h
  | up hdir ih =>
    rw [resolve_up hdir]
    exact ih h
  | @link _ _ _ rest _ hseeks hat hlast ih =>
    have hmore : rest.isEmpty = false := by simpa using hlast
    rw [resolve_link hseeks hat (by simp [hmore])]
    exact ih h
  | next hseeks hat hlink ih =>
    rw [resolve_next hseeks hat hlink]
    exact ih h
  | _ => cases h

theorem find_of_directory (h : s.lookUp here false path = .ok (.existing p .directory)) :
    s.find here path = .ok (p, .directory) := by
  have hfollow : s.lookUp here true path = .ok (.existing p .directory) := by
    unfold lookUp at h ⊢
    split at h
    · cases h
    · split at h
      · cases h
      · split at h
        · cases h
        · simp [*]
          exact resolve_of_directory h true
  rw [find, hfollow]

end Storage

/-! ## §2 What a walk comes upon -/

namespace Walk

variable {s : Storage} {here place : Place} {root file top : Path} {paths : Option Selection}
  {closed : Closed} {segments : List Segment} {e : Entry} {cause : Text} {found : List Visit}

/-- The file that a walk comes upon. -/
def Visit.file? : Visit → Option Path
  | .file path => some path
  | .unvisited .. => none

/-- The place that a walk comes upon and cannot visit, with the cause. -/
def Visit.unvisited? : Visit → Option (Path × Text)
  | .file _ => none
  | .unvisited path cause => some (path, cause)

@[simp]
theorem isOpen_nowhere (top : Path) (segments : List Segment) :
    isOpen .nowhere top segments = true := by
  induction segments generalizing top with
  | nil => rfl
  | cons name rest ih => exact ih (top.extend name)

/-- Nothing is closed on the way down where no directory on it is: the root, and each that the
beginnings of the segments lead to. -/
theorem isOpen_iff : isOpen closed top segments = true ↔
    ∀ above name below, segments = above ++ name :: below →
      closed (pathBelow top above) = none := by
  induction segments generalizing top with
  | nil => simp [isOpen]
  | cons first rest ih =>
    rw [isOpen, Bool.and_eq_true, Option.isNone_iff_eq_none, ih]
    constructor
    · intro h above name below hsplit
      cases above with
      | nil => exact h.1
      | cons first' above =>
        obtain ⟨rfl, hrest⟩ := List.cons_eq_cons.1 hsplit
        exact h.2 above name below hrest
    · intro h
      refine ⟨h [] first rest rfl, fun above name below hsplit => ?_⟩
      exact h (first :: above) name below (by rw [hsplit, List.cons_append])

/-- The class files below a directory behind no closed one, as paths. -/
def sources (s : Storage) (root : Path) (place : Place) (closed : Closed := Closed.nowhere) :
    List Path :=
  ((s.filesBelow place).filter fun segments =>
    isSource (segments.getLastD []) && isOpen closed root segments).map (pathBelow root)

theorem file?_visit? (closed : Closed) (root : Path) (segments : List Segment) (e : Entry) :
    (visit? closed root segments e).bind Visit.file? =
      match e with
      | .file .. =>
        if isSource (segments.getLastD []) && isOpen closed root segments then
          some (pathBelow root segments)
        else none
      | _ => none := by
  unfold visit?
  cases isOpen closed root segments with
  | false => cases e <;> simp
  | true =>
    cases e with
    | file content runnable => cases isSource (segments.getLastD []) <;> rfl
    | link target => rfl
    | directory => cases hclosed : closed (pathBelow root segments) <;> simp [hclosed, Visit.file?]

/-- The files that a walk comes upon below a directory are the class files there, in their order. -/
theorem filterMap_file?_visitsBelow (s : Storage) (closed : Closed) (root : Path) (place : Place) :
    (visitsBelow s closed root place).filterMap Visit.file? = sources s root place closed := by
  have htop : (visit? closed root [] .directory).bind Visit.file? = none :=
    file?_visit? closed root [] .directory
  rw [visitsBelow, List.filterMap_filterMap, List.filterMap_cons, htop]
  unfold Storage.entriesBelow sources Storage.filesBelow
  rw [List.filterMap_filterMap, ← List.filterMap_eq_map, ← List.filterMap_eq_filter,
    List.filterMap_filterMap, List.filterMap_filterMap]
  refine List.filterMap_congr fun binding _ => ?_
  obtain ⟨other, e⟩ := binding
  cases hbelow : Storage.below? place other with
  | none => cases e <;> simp [Storage.fileBelow?, hbelow]
  | some segments =>
    cases e with
    | file content runnable =>
      have hvisit := file?_visit? closed root segments (.file content runnable)
      simp only at hvisit
      simp [Storage.fileBelow?, hbelow, hvisit, Option.guard]
      split <;> rfl
    | link target => simp [Storage.fileBelow?, hbelow, file?_visit?]
    | directory => simp [Storage.fileBelow?, hbelow, file?_visit?]

theorem unvisited?_visit? (closed : Closed) (root : Path) (segments : List Segment) (e : Entry) :
    (visit? closed root segments e).bind Visit.unvisited? =
      if e = .directory ∧ isOpen closed root segments = true then
        (closed (pathBelow root segments)).map fun cause => (pathBelow root segments, cause)
      else none := by
  unfold visit?
  cases isOpen closed root segments with
  | false => simp
  | true =>
    cases e with
    | file content runnable => cases isSource (segments.getLastD []) <;> simp [Visit.unvisited?]
    | link target => rfl
    | directory =>
      cases hclosed : closed (pathBelow root segments) <;> simp [hclosed, Visit.unvisited?]

/-- The closed directories that a walk comes upon are those that lie behind no other one. -/
theorem mem_unvisited_visitsBelow (hdir : s.at? place = some .directory) {path : Path} :
    (path, cause) ∈ (visitsBelow s closed root place).filterMap Visit.unvisited? ↔
      ∃ segments, s.at? (place ++ segments) = some .directory ∧
        isOpen closed root segments = true ∧ path = pathBelow root segments ∧
        closed path = some cause := by
  have hentry : ∀ segments e, (segments, e) ∈ ([], Entry.directory) :: s.entriesBelow place ∧
      e = .directory ↔ s.at? (place ++ segments) = some .directory ∧ e = .directory := by
    intro segments e
    rw [List.mem_cons, Storage.mem_entriesBelow]
    constructor
    · rintro ⟨h | ⟨-, h⟩, rfl⟩
      · cases h
        exact ⟨by rwa [List.append_nil], rfl⟩
      · exact ⟨h, rfl⟩
    · rintro ⟨h, rfl⟩
      by_cases hne : segments = []
      · exact ⟨.inl (by rw [hne]), rfl⟩
      · exact ⟨.inr ⟨hne, h⟩, rfl⟩
  rw [visitsBelow, List.filterMap_filterMap, List.mem_filterMap]
  constructor
  · rintro ⟨⟨segments, e⟩, hmem, h⟩
    rw [unvisited?_visit?] at h
    split at h
    · next hopen =>
      obtain ⟨cause', hclosed, h⟩ := Option.map_eq_some_iff.1 h
      cases h
      exact ⟨segments, ((hentry segments e).1 ⟨hmem, hopen.1⟩).1, hopen.2, rfl, hclosed⟩
    · cases h
  · rintro ⟨segments, hat, hopen, rfl, hclosed⟩
    refine ⟨(segments, .directory), ((hentry segments .directory).2 ⟨hat, rfl⟩).1, ?_⟩
    rw [unvisited?_visit?, if_pos ⟨rfl, hopen⟩, hclosed]
    rfl

/-! ## §3 The files that are listed -/

/-- What a walk lists is what it comes upon, less what the selection leaves out. -/
theorem files_ofVisits (paths : Option Selection) (found : List Visit) :
    (ofVisits paths found).1.files
      = (found.filterMap Visit.file?).filter fun file =>
        Selection.passes paths (Path.display file) := by
  induction found with
  | nil => rfl
  | cons visit rest ih =>
    cases visit with
    | unvisited path cause => exact ih
    | file file =>
      simp only [ofVisits, List.filterMap_cons, Visit.file?, List.filter_cons]
      split
      · next h => rw [← ih]
      · next h => rw [← ih]

/-- Each file that a walk comes upon is listed or left out. -/
theorem length_ofVisits (paths : Option Selection) (found : List Visit) :
    (ofVisits paths found).1.files.length + (ofVisits paths found).1.excluded
      = (found.filterMap Visit.file?).length := by
  induction found with
  | nil => rfl
  | cons visit rest ih =>
    cases visit with
    | unvisited path cause => exact ih
    | file file =>
      simp only [ofVisits, List.filterMap_cons, Visit.file?, List.length_cons]
      cases Selection.passes paths (Path.display file) with
      | true =>
        simp only [if_true, List.length_cons]
        omega
      | false =>
        simp only [Bool.false_eq_true, if_false]
        omega

/-- The places that could not be visited are counted. -/
theorem unvisited_ofVisits (paths : Option Selection) (found : List Visit) :
    (ofVisits paths found).1.unvisited = (found.filterMap Visit.unvisited?).length := by
  induction found with
  | nil => rfl
  | cons visit rest ih =>
    cases visit with
    | unvisited path cause =>
      simp only [ofVisits, List.filterMap_cons, Visit.unvisited?, List.length_cons, ih]
    | file file =>
      simp only [ofVisits, List.filterMap_cons, Visit.unvisited?]
      split <;> exact ih

/-! ## §4 Walks from a root -/

/-- The class files of the tree below a directory, behind no closed one, that the selection
accepts, by path. -/
def classFiles (s : Storage) (paths : Option Selection) (root : Path) (place : Place)
    (closed : Closed := Closed.nowhere) : List Path :=
  (sources s root place closed).filter fun file => Selection.passes paths (Path.display file)

/-- A walk from a directory lists the class files below it that the selection accepts. -/
theorem files_ofRoot (h : s.lookUp here false root = .ok (.existing place .directory))
    (paths : Option Selection) (closed : Closed) :
    (ofRoot s here root paths closed).1.files = classFiles s paths root place closed := by
  unfold ofRoot visits
  rw [h, files_ofVisits, filterMap_file?_visitsBelow]
  rfl

/-- What a walk comes upon are the files below a directory, or it is at most the root. -/
theorem visits_cases (s : Storage) (here : Place) (root : Path) (closed : Closed) :
    (∃ place, s.find here root = .ok (place, .directory) ∧
        visits s here root closed = visitsBelow s closed root place) ∨
      visits s here root closed = [.file root] ∨ visits s here root closed = [] ∨
        ∃ fault : StorageFault, visits s here root closed = [.unvisited root fault.message] := by
  unfold visits
  split
  · exact .inr (.inr (.inr ⟨_, rfl⟩))
  · exact .inr (.inr (.inr ⟨_, rfl⟩))
  · next place hdir => exact .inl ⟨place, Storage.find_of_directory hdir, rfl⟩
  · split
    · exact .inr (.inl rfl)
    · exact .inr (.inr (.inl rfl))
  · split
    · next place hfind => exact .inl ⟨place, hfind, rfl⟩
    · exact .inr (.inr (.inl rfl))
    · exact .inr (.inr (.inr ⟨_, rfl⟩))

/-- A walk without a selection lists every file that it comes upon. -/
theorem files_ofRoot_none (s : Storage) (here : Place) (root : Path) (closed : Closed) :
    (ofRoot s here root none closed).1.files
      = (visits s here root closed).filterMap Visit.file? := by
  rw [ofRoot, files_ofVisits]
  exact List.filter_eq_self.2 fun _ _ => rfl

/-- What a walk lists is what it would list without a selection, less what the selection leaves
out. -/
theorem files_ofRoot_eq_filter (s : Storage) (here : Place) (root : Path)
    (paths : Option Selection) (closed : Closed) :
    (ofRoot s here root paths closed).1.files
      = (ofRoot s here root none closed).1.files.filter fun file =>
        Selection.passes paths (Path.display file) := by
  rw [files_ofRoot_none, ofRoot, files_ofVisits]

theorem length_ofRoot (s : Storage) (here : Place) (root : Path) (paths : Option Selection)
    (closed : Closed) :
    (ofRoot s here root paths closed).1.files.length + (ofRoot s here root paths closed).1.excluded
      = (ofRoot s here root none closed).1.files.length := by
  rw [files_ofRoot_none]
  exact length_ofVisits paths _

/-- What a walk lists is the root, or a class file below the directory that the root leads to. -/
theorem mem_files_ofRoot (h : file ∈ (ofRoot s here root paths closed).1.files) :
    file = root ∨ ∃ place, s.find here root = .ok (place, .directory) ∧
      file ∈ sources s root place closed := by
  rw [ofRoot, files_ofVisits] at h
  have hfound := (List.mem_filter.1 h).1
  rcases visits_cases s here root closed with ⟨place, hfind, hall⟩ | hall | hall | ⟨fault, hall⟩
  · rw [hall, filterMap_file?_visitsBelow] at hfound
    exact .inr ⟨place, hfind, hfound⟩
  · rw [hall] at hfound
    exact .inl (List.mem_singleton.1 hfound)
  · rw [hall] at hfound
    cases hfound
  · rw [hall] at hfound
    cases hfound

end Walk

end ClassGraph
