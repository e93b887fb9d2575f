/-
ClassGraph.Proofs.Analysis.Influence — which files have a say in a run.

A run asks for the content of a file after two decisions only: that the
selection of paths accepts the path the walk came upon, and that the selection
of classes accepts the class for which the file counts, which for a class
without a name is the one around it. The files that pass both are the
influential ones. Everything before a read is told by the outline of the tree
(`run_outline`), and a read of any other file never happens
(`handleAll_congr`), so two trees that differ in what other files hold have
the same run: `filtered_without_influence`.
-/
import ClassGraph.Proofs.Analysis.Order
import ClassGraph.Proofs.Storage.Outline

namespace ClassGraph.Analysis

variable {scope : Scope} {options : Options} {source source' : Source} {schedule : Nat → List Nat}
  {s s' : Storage} {here : Place} {stopped : Bool} {root file : Path} {closed : Closed}
  {files : List Path}

/-! ## §1 Handling files that are read alike -/

theorem handle_of_reads
    (h : scope.reads file = true → source.contents file = source'.contents file ∧
      source.stops file = source'.stops file) (stopped : Bool) :
    handle scope source stopped file = handle scope source' stopped file := by
  cases stopped with
  | true => rfl
  | false =>
    have hstops : stopsAt scope source file = stopsAt scope source' file := by
      unfold stopsAt
      cases hreads : scope.reads file with
      | false => rfl
      | true => rw [(h hreads).2]
    rw [handle_running, handle_running, hstops, Scope.outcome_congr fun hreads => (h hreads).1]

/-- Sources that agree on the files that are read agree on each file as far as it is read. -/
theorem agree_of_reads (h : source.AgreesOn source' (files.filter scope.reads))
    (hfile : file ∈ files) (hreads : scope.reads file = true) :
    source.contents file = source'.contents file ∧ source.stops file = source'.stops file :=
  h file (List.mem_filter.2 ⟨hfile, hreads⟩)

theorem inTurn_congr (h : source.AgreesOn source' (files.filter scope.reads)) (stopped : Bool) :
    inTurn scope source stopped files = inTurn scope source' stopped files := by
  induction files generalizing stopped with
  | nil => rfl
  | cons file rest ih =>
    have hfirst := handle_of_reads (agree_of_reads h (List.mem_cons_self ..)) stopped
    have hrest : source.AgreesOn source' (rest.filter scope.reads) := by
      intro f hf
      obtain ⟨hmem, hreads⟩ := List.mem_filter.1 hf
      exact agree_of_reads h (List.mem_cons_of_mem _ hmem) hreads
    simp only [inTurn, hfirst, ih hrest]

theorem fill_congr (h : source.AgreesOn source' (files.filter scope.reads)) (stopped : Bool)
    (slots : List (Option FileOutcome)) (schedule : List Nat) :
    fill scope source files stopped slots schedule
      = fill scope source' files stopped slots schedule := by
  induction schedule generalizing stopped slots with
  | nil => rfl
  | cons i rest ih =>
    unfold fill
    cases hf : files[i]? with
    | none => exact ih stopped slots
    | some file =>
      have hfile := handle_of_reads (agree_of_reads h (List.mem_of_getElem? hf)) stopped
      simp only [hfile, ih]

/-- Files that are not read are handled alike, whatever they hold. -/
theorem handleAll_congr (h : source.AgreesOn source' (files.filter (scopeOf options root).reads))
    (schedule : Nat → List Nat) (stopped : Bool) :
    handleAll options source schedule stopped root files
      = handleAll options source' schedule stopped root files := by
  unfold handleAll onSchedule
  rw [inTurn_congr h, fill_congr h]

/-! ## §2 Runs over trees with the same outline -/

/-- What a run makes of a tree depends on the outline alone, but for what its source yields. -/
theorem run_outline (h : s.SameOutline s') (here : Place) (options : Options) (source : Source)
    (schedule : Nat → List Nat) (stopped : Bool) (root : Path) (closed : Closed) :
    run s' here options source schedule stopped root closed
      = run s here options source schedule stopped root closed := by
  have hexists : s'.exists? = s.exists? := by
    funext here p
    exact Storage.exists?_outline h here p
  unfold run firstUnsupported
  simp only [hexists, Storage.canonical_outline h, Storage.ofRoot_outline h]

/-! ## §3 Influential files -/

/-- The files whose content a run goes by: of the class files that the walk comes upon, those whose
path is selected and whose class, or the nearest class around it with a name, is selected too. -/
def influential (s : Storage) (here : Place) (options : Options) (root : Path)
    (closed : Closed := Closed.nowhere) : List Path :=
  match s.canonical here root with
  | .error _ => []
  | .ok top => (Walk.ofRoot s here top none closed).1.files.filter fun file =>
    Selection.passes options.paths (Path.display file) && (scopeOf options top).reads file

theorem influential_eq {top : Path} (h : s.canonical here root = .ok top) (options : Options)
    (closed : Closed) : influential s here options root closed
      = (Walk.ofRoot s here top options.paths closed).1.files.filter
        (scopeOf options top).reads := by
  unfold influential
  rw [h, Walk.files_ofRoot_eq_filter s here top options.paths closed, List.filter_filter]
  simp only [Bool.and_comm]

theorem influential_outline (h : s.SameOutline s') (here : Place) (options : Options)
    (root : Path) (closed : Closed) :
    influential s' here options root closed = influential s here options root closed := by
  unfold influential
  simp only [Storage.canonical_outline h, Storage.ofRoot_outline h]

/-- Whether no other file is read in a run: it is the same run, the stop signal and the events
included, when other files hold something else, cannot be read, or give the signal on being
read. -/
def ReadsOnly (s : Storage) (here : Place) (options : Options) (source : Source)
    (schedule : Nat → List Nat) (stopped : Bool) (root : Path) (closed : Closed)
    (files : List Path) : Prop :=
  ∀ source', source.AgreesOn source' files →
    run s here options source schedule stopped root closed
      = run s here options source' schedule stopped root closed

theorem readsOnly_influential (s : Storage) (here : Place) (options : Options) (source : Source)
    (schedule : Nat → List Nat) (stopped : Bool) (root : Path) (closed : Closed) :
    ReadsOnly s here options source schedule stopped root closed
      (influential s here options root closed) := by
  intro source' hagree
  refine run_congr fun top hcanon => ?_
  rw [influential_eq hcanon] at hagree
  exact handleAll_congr hagree schedule stopped

/-- **Filtered files have no influence**: two trees with the same entries, whose files hold the same
and can be read alike as far as they are influential, have the same run, its events included, and
no other file is read in either. -/
theorem filtered_without_influence (h : s.SameOutline s') {refusal refusal' : Refusal}
    (hsame : ∀ file ∈ influential s here options root closed, ∀ place e,
      s.find here file = .ok (place, e) →
      s'.at? place = s.at? place ∧ refusal' place = refusal place)
    (stops : Path → Bool) (schedule : Nat → List Nat) (stopped : Bool) :
    let source : Source := ⟨s.contentsBut here refusal, stops⟩
    let source' : Source := ⟨s'.contentsBut here refusal', stops⟩
    run s here options source schedule stopped root closed
        = run s' here options source' schedule stopped root closed ∧
      ReadsOnly s here options source schedule stopped root closed
        (influential s here options root closed) ∧
      ReadsOnly s' here options source' schedule stopped root closed
        (influential s here options root closed) := by
  intro source source'
  have hagree : source.AgreesOn source' (influential s here options root closed) := by
    intro file hfile
    exact ⟨(Storage.contentsBut_outline h (hsame file hfile)).symm, rfl⟩
  have honly := readsOnly_influential s here options source schedule stopped root closed
  have honly' := readsOnly_influential s' here options source' schedule stopped root closed
  rw [influential_outline h] at honly'
  refine ⟨?_, honly, honly'⟩
  -- The second tree is first exchanged for the first one, with the source left as it is.
  rw [run_outline h]
  exact honly source' hagree

/-! ## §4 Files left out by either selection -/

/-- The name of the file of a class. -/
def fileName (stem : Text) : Segment := Path.ofText (stem ++ Name.sourceEnding)

/-- A directory with `B`, the class without a name inside `E`, and `F`. -/
def filteredTree : Storage :=
  ((treeOf ['B']).put [[0x61]] (fileName ['E', '$', '1']) (.file [0x4C, 0x44, 0x3B] false)).put
    [[0x61]] (fileName ['F']) (.file [0x4C, 0x44, 0x3B] false)

/-- The same directory with something else in the files of the latter two. -/
def refilledTree : Storage :=
  (filteredTree.put [[0x61]] (fileName ['E', '$', '1']) (.file [0xFF] false)).put
    [[0x61]] (fileName ['F']) (.file [] false)

/-- The options that leave out `E` by its class and `F` by its path. -/
def withoutEF : Options :=
  { everything with
    paths := some (.passing fun path => !path.contains 'F')
    classes := some (.passing fun n => n != ['E']) }

def nothingRefused : Refusal := fun _ => none

/-- Reading `F` is refused. -/
def refuseF : Refusal := fun place =>
  if place = [[0x61], fileName ['F']] then some ['n', 'o'] else none

/-- The run over a directory with these options. -/
def runWithoutEF (st : Storage) (refusal : Refusal) : Run :=
  run st [] withoutEF ⟨st.contentsBut [] refusal, fun _ => false⟩ (fun _ => []) false [0x61]

theorem sameOutline_refilledTree : filteredTree.SameOutline refilledTree :=
  (Storage.SameOutline.put [0xFF] false (by decide +kernel)).trans
    (Storage.SameOutline.put [] false (by decide +kernel))

theorem influential_filteredTree :
    influential filteredTree [] withoutEF [0x61] = [[0x2F, 0x61, 0x2F] ++ fileName ['B']] := by
  decide +kernel

theorem find_filteredTree : filteredTree.find [] ([0x2F, 0x61, 0x2F] ++ fileName ['B'])
    = .ok ([[0x61], fileName ['B']], .file [0x4C, 0x44, 0x3B] false) := by
  decide +kernel

theorem runWithoutEF_refilledTree : (runWithoutEF refilledTree refuseF).result.toOption.map
    (·.raw.vertexCount) = some 1 := by
  decide +kernel

theorem filtered_without_influence_filteredTree :
    filteredTree.SameOutline refilledTree ∧
      influential filteredTree [] withoutEF [0x61] = [[0x2F, 0x61, 0x2F] ++ fileName ['B']] ∧
      (runWithoutEF refilledTree refuseF).result.toOption.map (·.raw.vertexCount) = some 1 ∧
      runWithoutEF filteredTree nothingRefused = runWithoutEF refilledTree refuseF := by
  have hsame : ∀ file ∈ influential filteredTree [] withoutEF [0x61], ∀ place e,
      filteredTree.find [] file = .ok (place, e) →
      refilledTree.at? place = filteredTree.at? place ∧ refuseF place = nothingRefused place := by
    intro file hfile place e hplace
    rw [influential_filteredTree, List.mem_singleton] at hfile
    subst hfile
    cases find_filteredTree.symm.trans hplace
    exact ⟨by decide +kernel, by decide +kernel⟩
  refine ⟨sameOutline_refilledTree, influential_filteredTree, runWithoutEF_refilledTree, ?_⟩
  exact (filtered_without_influence sameOutline_refilledTree hsame (fun _ => false) (fun _ => [])
    false).1

end ClassGraph.Analysis
