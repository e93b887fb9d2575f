/-
ClassGraph.Proofs.Analysis.Outcomes — what a run that succeeds has done.

Whether files are handled one after another or on a schedule, a run that
yields a graph has handled every file without the stop signal, so its
outcomes are those of the files, in the order of the walk. The main
statement is `run_eq_ok`: the graph and the numbers of a successful run are
those of the outcomes of the walked files, and nothing else about the order
of handling or the moment of a signal enters into them.
-/
import ClassGraph.Analysis.Run
import ClassGraph.Proofs.Tally.Share

namespace ClassGraph.Analysis

variable {scope : Scope} {source : Source} {stopped : Bool} {files : List Path}
  {outcomes : List FileOutcome}

/-- The outcomes of files, where nothing stops the handling of them. -/
def outcomesOf (scope : Scope) (contents : Contents) (files : List Path) : List FileOutcome :=
  files.map fun file => (scope.outcome contents file).1

/-! ## §1 Handling in turn and on a schedule -/

theorem handle_eq_some {file : Path} {outcome : FileOutcome}
    (h : (handle scope source stopped file).1 = some outcome) :
    outcome = (scope.outcome source.contents file).1 := by
  unfold handle at h
  unfold Scope.outcome
  split at h
  · cases h
  · cases hhandling : scope.handling file with
    | settled outcome events =>
      rw [hhandling] at h
      exact (Option.some.inj h).symm
    | reading next =>
      rw [hhandling] at h
      exact (Option.some.inj h).symm

theorem inTurn_eq_some (h : (inTurn scope source stopped files).1 = some outcomes) :
    outcomes = outcomesOf scope source.contents files := by
  induction files generalizing stopped outcomes with
  | nil =>
    cases h
    rfl
  | cons file rest ih =>
    unfold inTurn at h
    cases hh : handle scope source stopped file with
    | mk first p =>
      obtain ⟨stopped', events⟩ := p
      rw [hh] at h
      cases first with
      | none => cases h
      | some outcome =>
        obtain ⟨others, hothers, rfl⟩ := Option.map_eq_some_iff.1 h
        have hfirst : outcome = (scope.outcome source.contents file).1 :=
          handle_eq_some (by rw [hh])
        rw [hfirst, ih hothers]
        rfl

/-- Every slot that is filled holds the outcome of its file. -/
structure Filled (scope : Scope) (contents : Contents) (files : List Path)
    (slots : List (Option FileOutcome)) : Prop where
  length : slots.length = files.length
  outcome : ∀ (i : Nat) (o : FileOutcome), slots[i]? = some (some o) →
    files[i]?.map (fun file => (scope.outcome contents file).1) = some o

theorem filled_none (scope : Scope) (contents : Contents) (files : List Path) :
    Filled scope contents files (files.map fun _ => none) where
  length := List.length_map _
  outcome := by
    intro i o h
    rw [List.getElem?_map] at h
    cases hf : files[i]? <;> simp [hf] at h

/-- Handling a file fills its slot alone. -/
theorem Filled.set {slots : List (Option FileOutcome)} {i : Nat} {file : Path}
    (h : Filled scope source.contents files slots) (hf : files[i]? = some file) :
    Filled scope source.contents files (slots.set i (handle scope source stopped file).1) where
  length := by rw [List.length_set, h.length]
  outcome := by
    intro j o hj
    rw [List.getElem?_set] at hj
    split at hj
    · next hij =>
      split at hj
      · rw [← hij, hf, Option.map_some, handle_eq_some (Option.some.inj hj)]
      · cases hj
    · exact h.outcome j o hj

theorem filled_fill {slots : List (Option FileOutcome)} (schedule : List Nat)
    (h : Filled scope source.contents files slots) :
    Filled scope source.contents files (fill scope source files stopped slots schedule).1 := by
  induction schedule generalizing stopped slots with
  | nil => exact h
  | cons i rest ih =>
    unfold fill
    cases hf : files[i]? with
    | none => exact ih h
    | some file => exact ih (h.set hf)

theorem mapM_id_eq_some {slots : List (Option FileOutcome)} (h : slots.mapM id = some outcomes) :
    slots = outcomes.map some := by
  induction slots generalizing outcomes with
  | nil =>
    cases h
    rfl
  | cons slot slots ih =>
    rw [List.mapM_cons] at h
    obtain ⟨first, hfirst, h⟩ := Option.bind_eq_some_iff.1 h
    obtain ⟨others, hothers, h⟩ := Option.bind_eq_some_iff.1 h
    cases h
    have hslot : slot = some first := hfirst
    rw [List.map_cons, ← ih hothers, hslot]

theorem onSchedule_eq_some {schedule : List Nat}
    (h : (onSchedule scope source schedule stopped files).1 = some outcomes) :
    outcomes = outcomesOf scope source.contents files := by
  have hslots := mapM_id_eq_some h
  have hfilled : Filled scope source.contents files
      (fill scope source files stopped (files.map fun _ => none) schedule).1 :=
    filled_fill schedule (filled_none scope source.contents files)
  rw [hslots] at hfilled
  apply List.ext_getElem?
  intro i
  rw [outcomesOf, List.getElem?_map]
  cases ho : outcomes[i]? with
  | some o => exact (hfilled.outcome i o (by rw [List.getElem?_map, ho]; rfl)).symm
  | none =>
    have hlen := hfilled.length
    rw [List.length_map] at hlen
    have hi : files.length ≤ i := hlen ▸ List.getElem?_eq_none_iff.1 ho
    rw [List.getElem?_eq_none hi]
    rfl

/-! ## §2 The graph of the outcomes -/

/-- The counts of the files that are counted. -/
def countsOf (outcomes : List FileOutcome) : List (Name × Counts) :=
  outcomes.filterMap FileOutcome.counts?

theorem merge_of_isEmpty {counts : Counts} (h : counts.isEmpty = true) (g : Graph) (s : Name) :
    g.merge s counts = g := by
  have hnone : ∀ t, (Graph.edgesOf s counts).find? t = none := fun t => by
    rw [Graph.find?_edgesOf, SortedMap.isEmpty_iff.1 h t]
    rfl
  unfold Graph.merge
  rw [if_pos (SortedMap.isEmpty_iff.2 hnone)]

theorem absorb_graph (g : Graph) (stats : Stats) (outcome : FileOutcome) :
    (absorb g stats outcome).1 = g.mergeAll outcome.counts?.toList := by
  cases outcome with
  | excluded name => rfl
  | failed => rfl
  | counted t =>
    rw [absorb_counted]
    split
    · next h => exact (merge_of_isEmpty h g t.name).symm
    · rfl

theorem absorbAll_graph (stats : Stats) (outcomes : List FileOutcome) :
    (absorbAll stats outcomes).1 = Graph.empty.mergeAll (countsOf outcomes) := by
  unfold absorbAll
  generalize Graph.empty = g
  induction outcomes generalizing g stats with
  | nil => rfl
  | cons outcome rest ih =>
    have hfirst := absorb_graph g stats outcome
    rw [List.foldl_cons, ih, hfirst]
    simp only [countsOf, List.filterMap_cons]
    cases outcome.counts? <;> rfl

/-! ## §3 Runs that succeed -/

/-- What the counting of a run depends on. -/
def scopeOf (options : Options) (root : Path) : Scope :=
  ⟨root, options.paths, options.classes, options.generated⟩

variable {s : Storage} {here : Place} {options : Options} {schedule : Nat → List Nat}
  {root : Path} {closed : Closed} {a : Analysis}

/-- The files of a walk, handled as the options say. -/
def handleAll (options : Options) (source : Source) (schedule : Nat → List Nat) (stopped : Bool)
    (root : Path) (files : List Path) : Option (List FileOutcome) × Bool × List Event :=
  if options.parallel then
    onSchedule (scopeOf options root) source (schedule files.length) stopped files
  else inTurn (scopeOf options root) source stopped files

theorem handleAll_eq_some
    (h : (handleAll options source schedule stopped root files).1 = some outcomes) :
    outcomes = outcomesOf (scopeOf options root) source.contents files := by
  unfold handleAll at h
  split at h
  · exact onSchedule_eq_some h
  · exact inTurn_eq_some h

theorem ofWalk_result (options : Options) (source : Source) (schedule : Nat → List Nat)
    (stopped : Bool) (root : Path) (w : Walk) :
    (ofWalk options source schedule stopped root w).result =
      match handleAll options source schedule stopped root w.files with
      | (some outcomes, false, _) =>
        .ok ⟨root, (absorbAll (startStats w) outcomes).1, options.keepsNested,
          (absorbAll (startStats w) outcomes).2⟩
      | _ => .error .cancelled := by
  unfold ofWalk handleAll scopeOf
  dsimp only
  generalize (if options.parallel then _ else _) = handled
  obtain ⟨outcomes, stopped', events⟩ := handled
  cases outcomes <;> cases stopped' <;> rfl

theorem ofWalk_eq_ok {w : Walk}
    (h : (ofWalk options source schedule stopped root w).result = .ok a) :
    a.root = root ∧ a.keepsNested = options.keepsNested ∧
      (a.raw, a.stats) = absorbAll (startStats w)
        (outcomesOf (scopeOf options root) source.contents w.files) := by
  rw [ofWalk_result] at h
  split at h
  · next outcomes events hh =>
    have hall : (handleAll options source schedule stopped root w.files).1 = some outcomes := by
      rw [hh]
    rw [← handleAll_eq_some hall]
    cases h
    exact ⟨rfl, rfl, rfl⟩
  · cases h

/-- A run succeeds with the outcomes of the files of its walk. -/
theorem run_eq_ok
    (h : (run s here options source schedule stopped root closed).result = .ok a) :
    s.canonical here root = .ok a.root ∧ a.keepsNested = options.keepsNested ∧
      (a.raw, a.stats) = absorbAll (startStats (Walk.ofRoot s here a.root options.paths closed).1)
        (outcomesOf (scopeOf options a.root) source.contents
          (Walk.ofRoot s here a.root options.paths closed).1.files) := by
  unfold run at h
  split at h
  · split at h
    · cases h
    · next top hcanon =>
      split at h
      · cases h
      · obtain ⟨hroot, hkeeps, habsorb⟩ := ofWalk_eq_ok h
        rw [hroot]
        exact ⟨hcanon, hkeeps, habsorb⟩
  · cases h

/-- The graph of a successful run is that of the counts of its files. -/
theorem raw_of_run (h : (run s here options source schedule stopped root closed).result = .ok a) :
    a.raw = Graph.empty.mergeAll (countsOf (outcomesOf (scopeOf options a.root) source.contents
      (Walk.ofRoot s here a.root options.paths closed).1.files)) := by
  rw [← absorbAll_graph (startStats (Walk.ofRoot s here a.root options.paths closed).1),
    ← (run_eq_ok h).2.2]

end ClassGraph.Analysis
