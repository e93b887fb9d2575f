/-
ClassGraph.Proofs.Analysis.Accounting — every file is accounted for once.

The numbers of a run are kept in three places: the walk counts what the
selection of paths leaves out, the joining of outcomes counts each kind of
outcome, and the handling of a file counts its bad lines. They add up to the
number of class files that the walk comes upon. A class is bound where a file
with counts is folded into it (`contains_iff`), so the graph has as many
classes as the files with counts have different names (`vertexCount_eq`).
`accounted_of_run` puts this together.
-/
import Mathlib.Data.List.Dedup
import ClassGraph.Proofs.Analysis.Influence
import ClassGraph.Proofs.Analysis.Isolation
import ClassGraph.Proofs.Analysis.Soundness
import ClassGraph.Proofs.Name.Reached
import ClassGraph.Proofs.Tally.Lines

namespace ClassGraph

/-! ## §1 What becomes of one file -/

/-- The class for which a file has counts, if it has any. -/
def FileOutcome.bound? : FileOutcome → Option Name
  | .counted t => if t.counts.isEmpty then none else some t.name
  | _ => none

namespace Scope

variable {scope : Scope} {contents : Contents} {file : Path} {literal s t : Name}

/-- The class into which a file that has counts is folded. -/
def bound? (scope : Scope) (contents : Contents) (file : Path) : Option Name :=
  (scope.outcome contents file).1.bound?

/-- A file is counted where it is processed. -/
theorem isSome_counts?_outcome (scope : Scope) (contents : Contents) (file : Path) :
    (scope.outcome contents file).1.counts?.isSome = (scope.processed? contents file).isSome := by
  have h := scope.handled_outcome contents file
  generalize scope.outcome contents file = handled at h ⊢
  cases h with
  | unnamed _ _ hnone => rw [hnone]; rfl
  | excluded _ _ hnone => rw [hnone]; rfl
  | unreadable _ _ _ hnone => rw [hnone]; rfl
  | counted _ _ _ _ hprocessed => rw [hprocessed]; rfl

theorem failedLines_outcome (scope : Scope) (contents : Contents) (file : Path) :
    (scope.outcome contents file).1.failedLines
      = ((scope.processed? contents file).map fun content =>
        (cut lineFeed content).countP isBadLine).getD 0 := by
  have h := scope.handled_outcome contents file
  generalize scope.outcome contents file = handled at h ⊢
  cases h with
  | unnamed _ _ hnone => rw [hnone]; rfl
  | excluded _ _ hnone => rw [hnone]; rfl
  | unreadable _ _ _ hnone => rw [hnone]; rfl
  | counted literal content _ _ hprocessed =>
    rw [hprocessed, FileOutcome.failedLines, tally_failedLines, badLines, length_badLinesFrom]
    rfl

/-- A file with a name fails where it is read and cannot be. -/
theorem isFailed_outcome (hname : Name.ofPath? scope.root file = .ok literal)
    (contents : Contents) :
    (scope.outcome contents file).1.isFailed
      = (scope.reads file && (contents file).toOption.isNone) := by
  have h := scope.handled_outcome contents file
  generalize scope.outcome contents file = handled at h ⊢
  cases h with
  | unnamed cause hunnamed =>
    rw [hname] at hunnamed
    cases hunnamed
  | excluded _ hreads => rw [hreads]; rfl
  | unreadable _ hreads hread => rw [hreads, hread]; rfl
  | counted _ _ hreads hread => rw [hreads, hread]; rfl

theorem bound?_eq_some : scope.bound? contents file = some s ↔
    ∃ t, (scope.outcome contents file).1 = .counted t ∧ t.name = s ∧ t.counts.isEmpty = false := by
  unfold bound?
  cases (scope.outcome contents file).1 with
  | counted t => cases hempty : t.counts.isEmpty <;> simp [FileOutcome.bound?, hempty]
  | excluded name => simp [FileOutcome.bound?]
  | failed => simp [FileOutcome.bound?]

theorem bound?_eq_bind (scope : Scope) (contents : Contents) (file : Path) :
    scope.bound? contents file = (scope.outcome contents file).1.counts?.bind fun counted =>
      if counted.2.isEmpty then none else some counted.1 := by
  unfold bound?
  cases (scope.outcome contents file).1 <;> rfl

/-- A file that binds a class adds to some edge from it, and no other file does. -/
theorem bound?_eq_some_iff_share :
    scope.bound? contents file = some s ↔ ∃ t, scope.share contents s t file ≠ 0 := by
  constructor
  · intro h
    rw [bound?_eq_bind, counts?_outcome] at h
    split at h
    · next literal content hname hread =>
      split at h
      · next hclass =>
        rw [Option.bind_some] at h
        split at h
        · cases h
        · next hcounts =>
          cases h
          obtain ⟨t, w, hw⟩ := SortedMap.exists_find?_of_not_isEmpty hcounts
          rw [find?_tally] at hw
          refine ⟨t, ?_⟩
          rw [share_eq_count hname hread hclass]
          intro hzero
          rw [if_pos hzero] at hw
          cases hw
      · cases h
    · cases h
  · rintro ⟨t, ht⟩
    obtain ⟨literal, content, hname, hread, rfl, hclass, hmem⟩ := mem_mentions_of_share ht
    have hcount : (scope.mentions literal content).count t ≠ 0 :=
      Nat.ne_of_gt (List.count_pos_iff.2 hmem)
    have hsome : ¬ (scope.tally file literal content).1.counts.isEmpty = true := by
      intro hempty
      have hfind := SortedMap.isEmpty_iff.1 hempty t
      rw [find?_tally, if_neg hcount] at hfind
      cases hfind
    rw [bound?_eq_bind, counts?_outcome]
    simp only [hname, hread, hclass, if_true, Option.bind_some, if_neg hsome]

end Scope

/-! ## §2 Files below a directory -/

namespace Walk

variable {s : Storage} {here place : Place} {file : Path} {paths : Option Selection}
  {closed : Closed}

/-- The class files of a walk without a selection are all that lie below its root, behind no closed
directory. -/
theorem length_files_pathOf (hnamed : s.isNamed = true) (hdir : s.at? place = some .directory)
    (hpath : Storage.pathFault? place = none) (here : Place) (closed : Closed) :
    (ofRoot s here (Storage.pathOf place) none closed).1.files.length
      = (s.filesBelow place).countP fun segments =>
        isSource (segments.getLastD []) && isOpen closed (Storage.pathOf place) segments := by
  have hall : ∀ file ∈ sources s (Storage.pathOf place) place closed,
      Selection.passes none (Path.display file) = true := fun _ _ => rfl
  rw [files_ofRoot_pathOf hnamed hdir, hpath, Option.isNone_none, if_pos rfl, classFiles,
    List.filter_eq_self.2 hall, sources, List.length_map, List.countP_eq_length_filter]

/-- Where names are text, every file of a walk below a directory has a name. -/
theorem named_of_mem_files (hnamed : s.isNamed = true) (hdir : s.at? place = some .directory)
    (htext : s.IsTextBelow place)
    (hfile : file ∈ (ofRoot s here (Storage.pathOf place) paths closed).1.files) :
    ∃ literal, Name.ofPath? (Storage.pathOf place) file = .ok literal := by
  rw [files_ofRoot_pathOf hnamed hdir] at hfile
  split at hfile
  · obtain ⟨hsource, -⟩ := List.mem_filter.1 hfile
    obtain ⟨segments, hsegments, rfl⟩ := List.mem_map.1 hsource
    obtain ⟨hbelow, hlisted⟩ := List.mem_filter.1 hsegments
    have hending := ((Bool.and_eq_true _ _).mp hlisted).1
    obtain ⟨texts, rfl⟩ := htext segments hbelow hending
    exact exists_ofPath?_pathBelow (List.cons_ne_nil _ _)
      (Storage.isName_of_mem_filesBelow hnamed hbelow).2 hending
  · cases hfile

end Walk

/-! ## §3 The classes of a graph -/

namespace Graph

/-- A graph has as many classes as there are different names among those of its classes. -/
theorem vertexCount_eq_of_contains {g : Graph} {names : List Name}
    (h : ∀ s, g.contains s = true ↔ s ∈ names) : g.vertexCount = names.dedup.length := by
  have hmem : ∀ s, s ∈ g.rows.keys ↔ s ∈ names.dedup := by
    intro s
    rw [List.mem_dedup, ← h, SortedMap.mem_keys_iff]
    exact Option.isSome_iff_exists.symm
  have hperm := (List.perm_ext_iff_of_nodup (SortedMap.nodup_keys g.rows) names.nodup_dedup).2 hmem
  rw [← hperm.length_eq, SortedMap.keys, List.length_map]
  rfl

end Graph

namespace Analysis

variable {st : Storage} {here place : Place} {options : Options} {source : Source}
  {schedule : Nat → List Nat} {stopped : Bool} {root : Path}
  {closed : Closed} {a : Analysis} {s : Name}

theorem length_countsOf (scope : Scope) (contents : Contents) (files : List Path) :
    (countsOf (outcomesOf scope contents files)).length
      = (files.filterMap (scope.processed? contents)).length := by
  rw [countsOf, outcomesOf, List.filterMap_map, List.length_filterMap_eq_countP,
    List.length_filterMap_eq_countP]
  exact List.countP_congr fun file _ => by
    rw [Function.comp_apply, scope.isSome_counts?_outcome]

/-- The counted files are those that bind a class and those without references. -/
theorem length_bound_add (scope : Scope) (contents : Contents) (files : List Path) :
    (files.filterMap (scope.bound? contents)).length
        + (countsOf (outcomesOf scope contents files)).countP (fun file => file.2.isEmpty)
      = (countsOf (outcomesOf scope contents files)).length := by
  induction files with
  | nil => rfl
  | cons file rest ih =>
    have hcons : countsOf (outcomesOf scope contents (file :: rest))
        = (scope.outcome contents file).1.counts?.toList
          ++ countsOf (outcomesOf scope contents rest) := countsOf_cons ..
    rw [hcons, List.filterMap_cons, scope.bound?_eq_bind, List.countP_append, List.length_append]
    cases (scope.outcome contents file).1.counts? with
    | none =>
      simp only [Option.bind_none, Option.toList, List.countP_nil, List.length_nil]
      omega
    | some counted =>
      cases hempty : counted.2.isEmpty <;> simp [hempty] <;> omega

theorem sum_failedLines (scope : Scope) (contents : Contents) (files : List Path) :
    ((outcomesOf scope contents files).map FileOutcome.failedLines).sum
      = ((files.filterMap (scope.processed? contents)).map fun content =>
        (cut Scope.lineFeed content).countP Scope.isBadLine).sum := by
  induction files with
  | nil => rfl
  | cons file rest ih =>
    have hcons : outcomesOf scope contents (file :: rest)
        = (scope.outcome contents file).1 :: outcomesOf scope contents rest := rfl
    rw [hcons, List.map_cons, List.sum_cons, ih, scope.failedLines_outcome, List.filterMap_cons]
    cases scope.processed? contents file with
    | none => exact Nat.zero_add _
    | some content => rw [List.map_cons, List.sum_cons]; rfl

/-- Files with counts all bind different classes where no name comes up twice among them. -/
theorem nodup_bound_iff (scope : Scope) (contents : Contents) (files : List Path) :
    (files.filterMap (scope.bound? contents)).Nodup ↔ files.Pairwise fun file file' =>
      ∀ t t' : Tally, (scope.outcome contents file).1 = .counted t → t.counts.isEmpty = false →
        (scope.outcome contents file').1 = .counted t' → t'.counts.isEmpty = false →
        t.name ≠ t'.name := by
  refine List.pairwise_filterMap.trans (List.Pairwise.iff fun file file' => ?_)
  simp only [Scope.bound?_eq_some]
  constructor
  · intro h t t' ht hcounts ht' hcounts'
    exact h t.name ⟨t, ht, rfl, hcounts⟩ t'.name ⟨t', ht', rfl, hcounts'⟩
  · rintro h _ ⟨t, ht, rfl, hcounts⟩ _ ⟨t', ht', rfl, hcounts'⟩
    exact h t t' ht hcounts ht' hcounts'

/-! ## §4 Runs -/

section Run

variable (hrun : (run st here options source schedule stopped root closed).result = .ok a)

include hrun

theorem stats_of_run :
    a.stats = (startStats (Walk.ofRoot st here a.root options.paths closed).1).after
      (outcomesOf (scopeOf options a.root) source.contents
        (Walk.ofRoot st here a.root options.paths closed).1.files) := by
  rw [← absorbAll_stats]
  exact congrArg Prod.snd (run_eq_ok hrun).2.2

theorem root_of_find (hfind : st.find here root = .ok (place, .directory)) :
    a.root = Storage.pathOf place :=
  Except.ok.inj ((run_eq_ok hrun).1.symm.trans (Storage.canonical_of_find hfind))

/-- All files are seen that the walk comes upon, whatever is selected. -/
theorem seen_of_run : a.stats.seen = (Walk.ofRoot st here a.root none closed).1.files.length := by
  rw [stats_of_run hrun]
  exact Walk.length_ofRoot st here a.root options.paths closed

/-- Every file is of one kind. -/
theorem total_of_run : a.stats.seen = a.stats.processed + a.stats.excludedByPath
    + a.stats.excludedByClass + a.stats.failed := by
  have hkinds := length_eq_of_kinds (outcomesOf (scopeOf options a.root) source.contents
    (Walk.ofRoot st here a.root options.paths closed).1.files)
  have hfiles : (outcomesOf (scopeOf options a.root) source.contents
      (Walk.ofRoot st here a.root options.paths closed).1.files).length
      = (Walk.ofRoot st here a.root options.paths closed).1.files.length := List.length_map _
  rw [stats_of_run hrun]
  simp only [Stats.after, startStats]
  omega

/-- Where all files have names, those fail that are read and cannot be. -/
theorem failed_of_run
    (hnamed : ∀ file ∈ (Walk.ofRoot st here a.root options.paths closed).1.files,
      ∃ literal, Name.ofPath? a.root file = .ok literal) :
    a.stats.failed = (Walk.ofRoot st here a.root options.paths closed).1.files.countP fun file =>
      (scopeOf options a.root).reads file && (source.contents file).toOption.isNone := by
  have hfailed : a.stats.failed = (outcomesOf (scopeOf options a.root) source.contents
      (Walk.ofRoot st here a.root options.paths closed).1.files).countP FileOutcome.isFailed := by
    rw [stats_of_run hrun]
    exact Nat.zero_add _
  rw [hfailed, outcomesOf, List.countP_map]
  refine List.countP_congr fun file hfile => ?_
  obtain ⟨literal, hname⟩ := hnamed file hfile
  have hscope : Name.ofPath? (scopeOf options a.root).root file = .ok literal := hname
  rw [Function.comp_apply, Scope.isFailed_outcome hscope]

theorem failedLines_of_run : a.stats.failedLines
    = (((Walk.ofRoot st here a.root options.paths closed).1.files.filterMap
      ((scopeOf options a.root).processed? source.contents)).map fun content =>
        (cut Scope.lineFeed content).countP Scope.isBadLine).sum := by
  rw [← sum_failedLines, stats_of_run hrun]
  exact Nat.zero_add _

variable (hshort : Short source.contents (Walk.ofRoot st here a.root options.paths closed).1.files)

include hshort

/-- A class is bound where some file of the walk has counts and is folded into it. -/
theorem contains_iff (s : Name) :
    a.raw.contains s = true ↔ ∃ file ∈ (Walk.ofRoot st here a.root options.paths closed).1.files,
      (scopeOf options a.root).bound? source.contents file = some s := by
  -- No row is empty, so what is known of the edges tells which classes are bound.
  rw [(compact_raw hrun).contains_iff]
  simp only [exists_weight?_iff hrun hshort, Scope.bound?_eq_some_iff_share]
  constructor
  · rintro ⟨t, file, hfile, hshare⟩
    exact ⟨file, hfile, t, hshare⟩
  · rintro ⟨file, hfile, t, hshare⟩
    exact ⟨t, file, hfile, hshare⟩

/-- There are as many classes as different names for which files have counts. -/
theorem vertexCount_eq :
    a.raw.vertexCount = ((Walk.ofRoot st here a.root options.paths closed).1.files.filterMap
      ((scopeOf options a.root).bound? source.contents)).dedup.length := by
  refine Graph.vertexCount_eq_of_contains fun s => ?_
  rw [contains_iff hrun hshort, List.mem_filterMap]

/-- There are no more classes than counted files with references, and as many where each has a class
of its own. -/
theorem vertexCount_le :
    a.raw.vertexCount + a.stats.withoutReferences ≤ a.stats.processed ∧
      (a.raw.vertexCount + a.stats.withoutReferences = a.stats.processed ↔
        ((Walk.ofRoot st here a.root options.paths closed).1.files.filterMap
          ((scopeOf options a.root).bound? source.contents)).Nodup) := by
  obtain ⟨-, hprocessed, hwithout⟩ := counted_of_run hrun
  have hbound := length_bound_add (scopeOf options a.root) source.contents
    (Walk.ofRoot st here a.root options.paths closed).1.files
  rw [← hwithout, ← hprocessed] at hbound
  rw [vertexCount_eq hrun hshort]
  generalize (Walk.ofRoot st here a.root options.paths closed).1.files.filterMap _ = names
    at hbound ⊢
  -- The names without their repetitions are part of the names, and all of them only where none is
  -- repeated.
  have hsublist := names.dedup_sublist
  have hle := hsublist.length_le
  refine ⟨by omega, ?_, fun hnodup => ?_⟩
  · intro heq
    exact List.dedup_eq_self.1 (hsublist.eq_of_length (by omega))
  · rw [hnodup.dedup]
    exact hbound

end Run

/-- How the numbers of a run account for the files below its root. -/
structure Accounted (st : Storage) (here : Place) (options : Options) (contents : Contents)
    (root : Path) (closed : Closed) (a : Analysis) : Prop where
  /-- Every file is of one kind. -/
  total : a.stats.seen = a.stats.processed + a.stats.excludedByPath + a.stats.excludedByClass
    + a.stats.failed
  /-- All files are seen that the walk comes upon, whatever is selected. -/
  seen : a.stats.seen = (Walk.ofRoot st here a.root none closed).1.files.length
  /-- Below a directory these are the class files that lie there, behind no closed directory. -/
  seenBelow : ∀ place, st.find here root = .ok (place, .directory) → st.isNamed = true →
    Storage.pathFault? place = none → a.stats.seen
      = (st.filesBelow place).countP fun segments =>
        Walk.isSource (segments.getLastD []) && Walk.isOpen closed a.root segments
  processed : a.stats.processed
    = ((Walk.ofRoot st here a.root options.paths closed).1.files.filterMap
      ((scopeOf options a.root).processed? contents)).length
  /-- Below a directory, where names are text, files fail that are read and cannot be. -/
  failedBelow : ∀ place, st.find here root = .ok (place, .directory) → st.isNamed = true →
    st.IsTextBelow place → a.stats.failed
      = (Walk.ofRoot st here a.root options.paths closed).1.files.countP fun file =>
        (scopeOf options a.root).reads file && (contents file).toOption.isNone
  /-- The lines that failed are those of processed files that are not text. -/
  failedLines : a.stats.failedLines
    = (((Walk.ofRoot st here a.root options.paths closed).1.files.filterMap
      ((scopeOf options a.root).processed? contents)).map fun content =>
        (cut Scope.lineFeed content).countP Scope.isBadLine).sum
  /-- A class is bound where a file with counts is folded into it. -/
  vertices : ∀ s, a.raw.contains s = true ↔
    ∃ file ∈ (Walk.ofRoot st here a.root options.paths closed).1.files, ∃ t : Tally,
      ((scopeOf options a.root).outcome contents file).1 = .counted t ∧ t.name = s ∧
        t.counts.isEmpty = false
  vertexCount : a.raw.vertexCount + a.stats.withoutReferences ≤ a.stats.processed
  /-- No two files with counts are folded into one class where there are as many classes as such
  files, and only there. -/
  distinct : a.raw.vertexCount + a.stats.withoutReferences = a.stats.processed ↔
    (Walk.ofRoot st here a.root options.paths closed).1.files.Pairwise fun file file' =>
      ∀ t t' : Tally, ((scopeOf options a.root).outcome contents file).1 = .counted t →
        t.counts.isEmpty = false →
        ((scopeOf options a.root).outcome contents file').1 = .counted t' →
        t'.counts.isEmpty = false → t.name ≠ t'.name

/-- **Every file is accounted for exactly once**: the numbers of a run add up to the number of class
files that the walk comes upon, each is the number of what it stands for, and the graph has one
class for each name into which files with counts are folded. -/
theorem accounted_of_run
    (hrun : (run st here options source schedule stopped root closed).result = .ok a)
    (hshort : Short source.contents (Walk.ofRoot st here a.root options.paths closed).1.files) :
    Accounted st here options source.contents root closed a where
  total := total_of_run hrun
  seen := seen_of_run hrun
  seenBelow := by
    intro place hfind hnamed hpath
    rw [seen_of_run hrun, root_of_find hrun hfind]
    exact Walk.length_files_pathOf hnamed (Storage.at?_of_find hfind) hpath here closed
  processed := by
    rw [← length_countsOf]
    exact (counted_of_run hrun).2.1
  failedBelow := by
    intro place hfind hnamed htext
    refine failed_of_run hrun fun file hfile => ?_
    rw [root_of_find hrun hfind] at hfile ⊢
    exact Walk.named_of_mem_files hnamed (Storage.at?_of_find hfind) htext hfile
  failedLines := failedLines_of_run hrun
  vertices := by
    intro s
    rw [contains_iff hrun hshort]
    simp only [Scope.bound?_eq_some]
  vertexCount := (vertexCount_le hrun hshort).1
  distinct := (vertexCount_le hrun hshort).2.trans (nodup_bound_iff ..)

/-- A directory with `B$C`, the class without a name inside it, the one inside `E`, and `F`. -/
def mixedTree : Storage :=
  (nestedTree.put [[0x61]] (fileName ['E', '$', '1']) (.file [0x4C, 0x44, 0x3B] false)).put
    [[0x61]] (fileName ['F']) (.file [0x4C, 0x44, 0x3B] false)

/-- A run that leaves files out by their paths and by their classes, comes upon a file that it
cannot read, and on a line that is not text. -/
def mixedRun : Run :=
  run mixedTree [] withoutEF ⟨mixedTree.contentsBut [] namelessRefused, fun _ => false⟩
    (fun _ => []) false [0x61]

theorem mixedRun_eq_ok : ∃ a, mixedRun.result = .ok a ∧ a.root = [0x2F, 0x61] ∧
    a.raw.vertexCount = 1 ∧ a.stats = ⟨4, 1, 0, 1, 1, 1, 1, 0⟩ := by
  have hall : (mixedRun.result.toOption.map fun a => (a.root, a.raw.vertexCount, a.stats))
      = some ([0x2F, 0x61], 1, ⟨4, 1, 0, 1, 1, 1, 1, 0⟩) := by decide +kernel
  obtain ⟨a, ha, hfacts⟩ := Option.map_eq_some_iff.1 hall
  simp only [Prod.mk.injEq] at hfacts
  exact ⟨a, eq_ok_of_toOption ha, hfacts⟩

theorem isTextBelow_mixedTree : mixedTree.IsTextBelow [[0x61]] := by
  have hfiles : mixedTree.filesBelow [[0x61]]
      = [['B', '$', 'C', '$', '1'], ['B', '$', 'C'], ['E', '$', '1'], ['F']].map fun stem =>
        [fileName stem] := by decide +kernel
  intro segments hsegments _
  rw [hfiles] at hsegments
  obtain ⟨stem, -, rfl⟩ := List.mem_map.1 hsegments
  exact ⟨[stem ++ Name.sourceEnding], rfl⟩

theorem accounted_mixedRun : ∃ a, mixedRun.result = .ok a ∧
    Accounted mixedTree [] withoutEF (mixedTree.contentsBut [] namelessRefused) [0x61] .nowhere a ∧
    a.raw.vertexCount = 1 ∧ a.stats = ⟨4, 1, 0, 1, 1, 1, 1, 0⟩ ∧
    a.stats.failed = (Walk.ofRoot mixedTree [] a.root withoutEF.paths).1.files.countP fun file =>
      (scopeOf withoutEF a.root).reads file
        && (mixedTree.contentsBut [] namelessRefused file).toOption.isNone := by
  obtain ⟨a, ha, hroot, hclasses, hstats⟩ := mixedRun_eq_ok
  have hshort : isShort (mixedTree.contentsBut [] namelessRefused)
      (Walk.ofRoot mixedTree [] [0x2F, 0x61] withoutEF.paths).1.files = true := by decide +kernel
  have hfind : mixedTree.find [] [0x61] = .ok ([[0x61]], .directory) := by decide +kernel
  have hnamed : mixedTree.isNamed = true := by decide +kernel
  rw [← hroot] at hshort
  have haccounted := accounted_of_run ha (short_of_isShort hshort)
  exact ⟨a, ha, haccounted, hclasses, hstats,
    haccounted.failedBelow _ hfind hnamed isTextBelow_mixedTree⟩

end Analysis

end ClassGraph
