/-
ClassGraph.Proofs.Analysis.Isolation — failures stay where they are.

A file that cannot be read adds nothing to the graph, and neither does a line
that is not text; nothing else is lost with them. So a run on a tree with such
files and lines counts what a run counts on the tree that is spared of both:
the same files below the root, each with the same mentions
(`countsOf_spared`). The graph and the numbers of counted files are read off
these counts: `failures_isolated`.
-/
import ClassGraph.Proofs.Analysis.Order
import ClassGraph.Proofs.Storage.Spared

namespace ClassGraph

/-! ## §1 What a file counts -/

namespace Scope

variable {scope : Scope} {contents contents' : Contents} {file : Path}

theorem mentionsIn_mendLine (scope : Scope) (this literal : Name) (line : Bytes) :
    scope.mentionsIn this literal (mendLine line) = scope.mentionsIn this literal line := by
  unfold mendLine
  split
  · rfl
  · next cause h =>
    have hempty : scope.mentionsIn this literal [] = [] :=
      List.length_eq_zero_iff.1 (Nat.le_zero.1 (scope.length_mentionsIn_le this literal []))
    rw [hempty, mentionsIn, h]

/-- A file mentions the same names when its lines are mended. -/
theorem mentions_mendLines (scope : Scope) (literal : Name) (content : Bytes) :
    scope.mentions literal (mendLines content) = scope.mentions literal content := by
  rw [mentions, mentions, cut_mendLines, List.flatMap_map]
  simp only [mentionsIn_mendLine]

theorem counts?_mended
    (h : (contents' file).toOption = (contents file).toOption.map mendLines) :
    (scope.outcome contents' file).1.counts? = (scope.outcome contents file).1.counts? := by
  rw [counts?_outcome, counts?_outcome]
  cases Name.ofPath? scope.root file with
  | error cause => rfl
  | ok literal =>
    cases hc : contents file with
    | error cause =>
      cases hc' : contents' file with
      | error cause' => rfl
      | ok content' =>
        rw [hc, hc'] at h
        cases h
    | ok content =>
      cases hc' : contents' file with
      | error cause' =>
        rw [hc, hc'] at h
        cases h
      | ok content' =>
        rw [hc, hc'] at h
        obtain rfl : content' = mendLines content := Option.some.inj h
        simp only [tally_counts, mentions_mendLines]

theorem counts?_of_unread (h : (contents file).toOption = none) :
    (scope.outcome contents file).1.counts? = none := by
  rw [counts?_outcome]
  cases hc : contents file with
  | error cause => cases Name.ofPath? scope.root file <;> rfl
  | ok content =>
    rw [hc] at h
    cases h

end Scope

/-! ## §2 What a walk counts -/

namespace Walk

variable {s : Storage} {place : Place}

/-- From a directory that its path leads to a walk lists class files; otherwise it lists none. -/
theorem files_ofRoot_pathOf (hnamed : s.isNamed = true) (hdir : s.at? place = some .directory)
    (here : Place) (paths : Option Selection) (closed : Closed) :
    (ofRoot s here (Storage.pathOf place) paths closed).1.files =
      if (Storage.pathFault? place).isNone then
        classFiles s paths (Storage.pathOf place) place closed
      else [] := by
  have hlook := Storage.lookUp_pathOf hnamed hdir (fun t ht => by cases ht) here false
  cases hfault : Storage.pathFault? place with
  | none =>
    rw [hfault] at hlook
    exact files_ofRoot hlook paths closed
  | some fault =>
    rw [hfault] at hlook
    unfold ofRoot visits
    rw [hlook]
    rfl

theorem classFiles_spared_sublist (s : Storage) (refusal : Refusal) (paths : Option Selection)
    (root : Path) (place : Place) (closed : Closed) :
    (classFiles (s.spared refusal) paths root place closed).Sublist
      (classFiles s paths root place closed) := by
  unfold classFiles sources
  rw [Storage.filesBelow_spared]
  exact ((List.filter_sublist.filter _).map _).filter _

/-- A walk over the tree that is spared lists no other files. -/
theorem files_spared_sublist (hnamed : s.isNamed = true) (hdir : s.at? place = some .directory)
    (here : Place) (refusal : Refusal) (paths : Option Selection) (closed : Closed) :
    (ofRoot (s.spared refusal) here (Storage.pathOf place) paths closed).1.files.Sublist
      (ofRoot s here (Storage.pathOf place) paths closed).1.files := by
  rw [files_ofRoot_pathOf hnamed hdir, files_ofRoot_pathOf (Storage.isNamed_spared hnamed refusal)
    (Storage.at?_spared_directory hdir refusal)]
  split
  · exact classFiles_spared_sublist ..
  · exact List.Sublist.refl _

end Walk

namespace Analysis

variable {s : Storage} {here place : Place} {options : Options} {source : Source}
  {schedule : Nat → List Nat} {stopped : Bool} {root : Path} {closed : Closed} {a : Analysis}

theorem countsOf_classFiles (scope : Scope) (contents : Contents) (s : Storage)
    (paths : Option Selection) (root : Path) (place : Place) (closed : Closed) :
    countsOf (outcomesOf scope contents (Walk.classFiles s paths root place closed))
      = (s.filesBelow place).filterMap fun segments =>
        if Walk.isSource (segments.getLastD []) && Walk.isOpen closed root segments then
          if Selection.passes paths (Path.display (Walk.pathBelow root segments)) then
            (scope.outcome contents (Walk.pathBelow root segments)).1.counts?
          else none
        else none := by
  unfold countsOf outcomesOf Walk.classFiles Walk.sources
  rw [List.filterMap_map, List.filterMap_filter, List.filterMap_map, List.filterMap_filter]
  rfl

theorem countsOf_classFiles_spared (hnamed : s.isNamed = true)
    (hdir : s.at? place = some .directory) (scope : Scope) (here : Place) (refusal : Refusal)
    (paths : Option Selection) (closed : Closed) :
    countsOf (outcomesOf scope ((s.spared refusal).contents here)
        (Walk.classFiles (s.spared refusal) paths (Storage.pathOf place) place closed))
      = countsOf (outcomesOf scope (s.contentsBut here refusal)
        (Walk.classFiles s paths (Storage.pathOf place) place closed)) := by
  rw [countsOf_classFiles, countsOf_classFiles, Storage.filesBelow_spared, List.filterMap_filter]
  refine List.filterMap_congr fun segments hsegments => ?_
  obtain ⟨-, content, runnable, hfile⟩ := Storage.mem_filesBelow.1 hsegments
  have hpath : Walk.pathBelow (Storage.pathOf place) segments
      = Storage.pathOf (place ++ segments) :=
    Storage.pathBelow_pathOf (Storage.isName_of_at? hnamed hdir)
      (Storage.isName_of_mem_filesBelow hnamed hsegments).2
  rw [hpath]
  cases hrefused : refusal (place ++ segments) with
  | none =>
    have hmended := Storage.toOption_contents_spared hnamed hfile here hrefused
    rw [Scope.counts?_mended hmended]
    rfl
  | some cause =>
    have hunread := Storage.toOption_contentsBut_pathOf hnamed hfile here refusal
    rw [hrefused] at hunread
    rw [Scope.counts?_of_unread hunread]
    simp

/-- The files of a walk count the same when the tree is spared. -/
theorem countsOf_spared (hnamed : s.isNamed = true) (hdir : s.at? place = some .directory)
    (scope : Scope) (here : Place) (refusal : Refusal) (paths : Option Selection)
    (closed : Closed) :
    countsOf (outcomesOf scope ((s.spared refusal).contents here)
        (Walk.ofRoot (s.spared refusal) here (Storage.pathOf place) paths closed).1.files)
      = countsOf (outcomesOf scope (s.contentsBut here refusal)
        (Walk.ofRoot s here (Storage.pathOf place) paths closed).1.files) := by
  rw [Walk.files_ofRoot_pathOf hnamed hdir, Walk.files_ofRoot_pathOf
    (Storage.isNamed_spared hnamed refusal) (Storage.at?_spared_directory hdir refusal)]
  split
  · exact countsOf_classFiles_spared hnamed hdir scope here refusal paths closed
  · rfl

/-! ## §3 What a run counts -/

/-- The graph of a run and the numbers of its counted files are those of the counts. -/
theorem counted_of_run
    (h : (run s here options source schedule stopped root closed).result = .ok a) :
    let counts := countsOf (outcomesOf (scopeOf options a.root) source.contents
      (Walk.ofRoot s here a.root options.paths closed).1.files)
    a.raw = Graph.empty.mergeAll counts ∧ a.stats.processed = counts.length ∧
      a.stats.withoutReferences = counts.countP fun file => file.2.isEmpty := by
  obtain ⟨-, -, habsorb⟩ := run_eq_ok h
  have hstats := congrArg Prod.snd habsorb
  rw [absorbAll_stats] at hstats
  refine ⟨raw_of_run h, ?_, ?_⟩
  · rw [show a.stats = _ from hstats]
    exact Nat.zero_add _
  · rw [show a.stats = _ from hstats]
    exact Nat.zero_add _

theorem signalled_of_sublist {scope : Scope} {contents : Contents} {stops : Path → Bool}
    {files files' : List Path} (contents' : Contents) (hfiles : files'.Sublist files)
    (h : signalled scope ⟨contents, stops⟩ stopped files = false) :
    signalled scope ⟨contents', stops⟩ stopped files' = false := by
  simp only [signalled, Bool.or_eq_false_iff, List.any_eq_false] at h ⊢
  exact ⟨h.1, fun file hfile => h.2 file (hfiles.subset hfile)⟩

/-- **Failures are isolated**: where a run below a directory yields something, though reading some
files is refused and some lines are not text, it yields the graph, the number of counted files and
the number of those without references that a run yields on the tree without those files, and with
an empty line for every such line. The tree is any in which entries have names. -/
theorem failures_isolated (hschedule : options.parallel = true → IsSchedule schedule)
    (hnamed : s.isNamed = true) (hroot : s.find here root = .ok (place, .directory))
    {refusal : Refusal} {stops : Path → Bool}
    (h : (run s here options ⟨s.contentsBut here refusal, stops⟩ schedule stopped root
      closed).result = .ok a) :
    ∃ a', (run (s.spared refusal) here options ⟨(s.spared refusal).contents here, stops⟩ schedule
        stopped root closed).result = .ok a' ∧
      a'.raw = a.raw ∧ a'.stats.processed = a.stats.processed ∧
      a'.stats.withoutReferences = a.stats.withoutReferences := by
  have hdir := Storage.at?_of_find hroot
  have hcanon := Storage.canonical_of_find hroot
  have hroot' : (s.spared refusal).find here root = .ok (place, .directory) :=
    Storage.find_spared hroot rfl
  have hcanon' := Storage.canonical_of_find hroot'
  -- nothing that would end the first run ends the second
  obtain ⟨top, htop, hnone, hquiet⟩ := (exists_ok_iff hschedule ..).1 ⟨a, h⟩
  obtain rfl : Storage.pathOf place = top := Except.ok.inj (hcanon.symm.trans htop)
  have hnone' : ∀ f ∈ options.unsupported,
      f.isPresent (s.spared refusal) (Storage.pathOf place) = false := fun f hf =>
    Storage.exists?_spared_of_false (hnone f hf) refusal
  have hquiet' := signalled_of_sublist ((s.spared refusal).contents here)
    (Walk.files_spared_sublist hnamed hdir here refusal options.paths closed) hquiet
  obtain ⟨a', h'⟩ := (exists_ok_iff hschedule ..).2 ⟨_, hcanon', hnone', hquiet'⟩
  -- both count the same
  have hpath : a.root = Storage.pathOf place :=
    Except.ok.inj ((run_eq_ok h).1.symm.trans hcanon)
  have hpath' : a'.root = Storage.pathOf place :=
    Except.ok.inj ((run_eq_ok h').1.symm.trans hcanon')
  have hcounts := countsOf_spared hnamed hdir (scopeOf options (Storage.pathOf place)) here refusal
    options.paths closed
  obtain ⟨hraw, hprocessed, hwithout⟩ := counted_of_run h
  obtain ⟨hraw', hprocessed', hwithout'⟩ := counted_of_run h'
  rw [hpath] at hraw hprocessed hwithout
  rw [hpath', hcounts] at hraw' hprocessed' hwithout'
  exact ⟨a', h', hraw'.trans hraw.symm, hprocessed'.trans hprocessed.symm,
    hwithout'.trans hwithout.symm⟩

/-- Reading the file of the class without a name is refused. -/
def namelessRefused : Refusal := fun place =>
  if place = [[0x61], [0x42, 0x24, 0x43, 0x24, 0x31, 0x2E, 0x73, 0x6D, 0x61, 0x6C, 0x69]] then
    some ['n', 'o']
  else none

/-- The run over the nested classes, of whose files one is refused and one has a line that is not
text. -/
def refusedRun : Run :=
  run nestedTree [] everything ⟨nestedTree.contentsBut [] namelessRefused, fun _ => false⟩
    (fun _ => []) false [0x61]

theorem failures_isolated_nestedTree : ∃ a a', refusedRun.result = .ok a ∧
    a.stats.failed = 1 ∧ a.stats.failedLines = 1 ∧
    (a.raw.weight? ['B', '$', 'C'] ['D']).map UInt32.toNat = some 2 ∧
    (runOver (nestedTree.spared namelessRefused) everything).result = .ok a' ∧
    a'.raw = a.raw ∧ a'.stats.processed = a.stats.processed ∧
    a'.stats.withoutReferences = a.stats.withoutReferences := by
  have hall : (refusedRun.result.toOption.map fun a => (a.stats.failed, a.stats.failedLines,
      (a.raw.weight? ['B', '$', 'C'] ['D']).map UInt32.toNat)) = some (1, 1, some 2) := by
    decide +kernel
  obtain ⟨a, ha, hfacts⟩ := Option.map_eq_some_iff.1 hall
  simp only [Prod.mk.injEq] at hfacts
  obtain ⟨hfailed, hlines, hweight⟩ := hfacts
  have hnamed : nestedTree.isNamed = true := by decide +kernel
  have hroot : nestedTree.find [] [0x61] = .ok ([[0x61]], .directory) := by decide +kernel
  have hrun := eq_ok_of_toOption ha
  obtain ⟨a', h'⟩ := failures_isolated (fun h => by cases h) hnamed hroot hrun
  exact ⟨a, a', hrun, hfailed, hlines, hweight, h'⟩

end Analysis

end ClassGraph
