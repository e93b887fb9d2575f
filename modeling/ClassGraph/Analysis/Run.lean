/-
ClassGraph.Analysis.Run — analysing a tree.

A run looks for the root and for unsupported features, walks the tree,
handles its files and joins what they yield into one graph. A stop signal
may be given before the run or while a file is read; from then on no further
file is handled and the run yields nothing. Files are handled one after
another, or in parallel, that is in any order: each outcome then has the
slot of its file.
-/
import ClassGraph.Analysis.Basic
import ClassGraph.Tally
import ClassGraph.Walk

namespace ClassGraph

/-- Where contents come from, and during which reads the stop signal is given. -/
structure Source where
  contents : Contents
  stops : Path → Bool

/-- How the reading of a file is reported to have failed. -/
def unreadText (p : Path) (cause : Text) : Text :=
  "Failed to read smali file: ".toList ++ p.display ++ [':', ' '] ++ cause

/-- The contents of the files of a tree. -/
def Storage.contents (s : Storage) (here : Place) : Contents := fun p =>
  match s.read here p with
  | .ok content => .ok content
  | .error fault => .error (unreadText p fault.message)

/-- The contents of the files of a tree, for a reader to whom some of them are refused. -/
def Storage.contentsBut (s : Storage) (here : Place) (refusal : Refusal) : Contents := fun p =>
  match s.find here p with
  | .ok (place, _) =>
    match refusal place with
    | some cause => .error cause
    | none => s.contents here p
  | .error _ => s.contents here p

/-- The directories of a tree that are closed: those that are refused, and those to which a path is
too long to lead. -/
def Storage.closedBut (s : Storage) (here : Place) (refusal : Refusal) : Closed := fun p =>
  match s.find here p with
  | .ok (place, _) => refusal place
  | .error fault => some fault.message

/-- The files of a tree as a source without a stop signal. -/
def Storage.source (s : Storage) (here : Place) : Source := ⟨s.contents here, fun _ => false⟩

namespace Analysis

/-! ## §1 Handling files -/

/-- What comes of handling a file: nothing once the stop signal is given; otherwise its outcome.
With it, whether the signal is given afterwards, which only a read can bring about, and the
events. -/
def handle (scope : Scope) (source : Source) (stopped : Bool) (file : Path) :
    Option FileOutcome × Bool × List Event :=
  if stopped then (none, true, [])
  else
    match scope.handling file with
    | .settled outcome events => (some outcome, false, events)
    | .reading next =>
      let (outcome, events) := next (source.contents file)
      (some outcome, source.stops file, events)

/-- The outcomes of files handled one after another; none if one is not handled. -/
def inTurn (scope : Scope) (source : Source) (stopped : Bool) :
    List Path → Option (List FileOutcome) × Bool × List Event
  | [] => (some [], stopped, [])
  | file :: rest =>
    match handle scope source stopped file with
    | (none, stopped, events) => (none, stopped, events)
    | (some outcome, stopped, events) =>
      let (outcomes, stopped, more) := inTurn scope source stopped rest
      (outcomes.map (outcome :: ·), stopped, events ++ more)

/-- The slots after the files of a schedule, given by number, are handled. -/
def fill (scope : Scope) (source : Source) (files : List Path) (stopped : Bool)
    (slots : List (Option FileOutcome)) :
    List Nat → List (Option FileOutcome) × Bool × List Event
  | [] => (slots, stopped, [])
  | i :: rest =>
    match files[i]? with
    | none => fill scope source files stopped slots rest
    | some file =>
      let (outcome, stopped, events) := handle scope source stopped file
      let (slots, stopped, more) := fill scope source files stopped (slots.set i outcome) rest
      (slots, stopped, events ++ more)

/-- The outcomes of files handled in the order of a schedule; none if one is not handled. -/
def onSchedule (scope : Scope) (source : Source) (schedule : List Nat) (stopped : Bool)
    (files : List Path) : Option (List FileOutcome) × Bool × List Event :=
  let (slots, stopped, events) := fill scope source files stopped (files.map fun _ => none) schedule
  (slots.mapM id, stopped, events)

/-! ## §2 Joining outcomes -/

/-- The numbers before any file is handled. -/
def startStats (w : Walk) : Stats :=
  { seen := w.files.length + w.excluded, processed := 0, withoutReferences := 0,
    excludedByPath := w.excluded, excludedByClass := 0, failed := 0, failedLines := 0,
    unvisited := w.unvisited }

/-- The graph and the numbers with one more outcome. -/
def absorb (g : Graph) (stats : Stats) : FileOutcome → Graph × Stats
  | .counted t =>
    let stats := { stats with
      processed := stats.processed + 1, failedLines := stats.failedLines + t.failedLines }
    if t.counts.isEmpty then (g, { stats with withoutReferences := stats.withoutReferences + 1 })
    else (g.merge t.name t.counts, stats)
  | .excluded _ => (g, { stats with excludedByClass := stats.excludedByClass + 1 })
  | .failed => (g, { stats with failed := stats.failed + 1 })

/-- The graph and the numbers of all outcomes. -/
def absorbAll (stats : Stats) (outcomes : List FileOutcome) : Graph × Stats :=
  outcomes.foldl (fun (g, stats) outcome => absorb g stats outcome) (Graph.empty, stats)

theorem absorb_counted (g : Graph) (stats : Stats) (t : Tally) :
    (absorb g stats (.counted t)).1 = if t.counts.isEmpty then g else g.merge t.name t.counts := by
  simp only [absorb]
  split <;> rfl

/-! ## §3 Runs -/

/-- A run that is over. -/
structure Run where
  result : Except RunError Analysis
  /-- Whether the stop signal is given. -/
  stopped : Bool
  events : List Event

/-- The first feature whose marker stands below the root, with the path of the marker. -/
def firstUnsupported (s : Storage) (root : Path) (features : List Feature) :
    Option (Feature × Path) :=
  (features.map fun f => (f, root.extend f.marker)).find? fun (_, marker) => s.exists? [] marker

/-- The run over the files of a walk. -/
def ofWalk (options : Options) (source : Source) (schedule : Nat → List Nat) (stopped : Bool)
    (root : Path) (w : Walk) : Run :=
  let scope : Scope := ⟨root, options.paths, options.classes, options.generated⟩
  let (outcomes, stopped, events) :=
    if options.parallel then
      onSchedule scope source (schedule w.files.length) stopped w.files
    else inTurn scope source stopped w.files
  match stopped, outcomes with
  | false, some outcomes =>
    let (g, stats) := absorbAll (startStats w) outcomes
    ⟨.ok ⟨root, g, options.keepsNested, stats⟩, false,
      events ++ [.finished stats g.vertexCount g.edgeCount]⟩
  | stopped, _ => ⟨.error .cancelled, stopped, events ++ [.cancelled]⟩

/-- The run over the tree at `root`, of whose directories some may be closed. The schedule says in
which order a number of files is handled in parallel. -/
def run (s : Storage) (here : Place) (options : Options) (source : Source)
    (schedule : Nat → List Nat) (stopped : Bool) (root : Path)
    (closed : Closed := Closed.nowhere) : Run :=
  if s.exists? here root then
    match s.canonical here root with
    | .error fault => ⟨.error (.storage fault.message root), stopped, [.started root]⟩
    | .ok top =>
      match firstUnsupported s top options.unsupported with
      | some (feature, marker) =>
        ⟨.error (.unsupported feature.name marker), stopped,
          [.started root, .unsupported feature.name marker]⟩
      | none =>
        let (w, events) := Walk.ofRoot s here top options.paths closed
        let r := ofWalk options source schedule stopped top w
        { r with events := .started root :: events ++ r.events }
  else ⟨.error (.rootMissing root), stopped, [.started root, .rootMissing root]⟩

end Analysis

end ClassGraph
