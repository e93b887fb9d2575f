/-
ClassGraph.Proofs.Analysis.Ending — how a run ends, and what it has read by
then.

A run ends in one of four ways, which are tried in this order: there is no
root, the tree has an unsupported feature, the stop signal is given by the
time the files have been handled, or every file of the walk has its outcome
(`run_result`). What a run does not read is told by its not depending on it:
the whole run, its events and the signal included, is the same for every
source that agrees on the files that are read. `endsRightly_run` puts this
together; `runAll_of_stopped` is about the runs after one that was stopped.
-/
import ClassGraph.Proofs.Analysis.Numbers
import ClassGraph.Proofs.Analysis.Signal
import ClassGraph.Proofs.Analysis.Weights

namespace ClassGraph

/-- Whether the file by which a feature is told stands below a root. -/
def Feature.isPresent (s : Storage) (root : Path) (f : Feature) : Bool :=
  s.exists? [] (root.extend f.marker)

namespace Analysis

variable {options : Options} {schedule : Nat → List Nat} {source source' : Source} {s : Storage}
  {here : Place} {root top : Path} {closed : Closed}

/-! ## §1 Runs over a walk -/

theorem ofWalk_congr {w : Walk}
    (h : handleAll options source schedule stopped root w.files
      = handleAll options source' schedule stopped root w.files) :
    ofWalk options source schedule stopped root w
      = ofWalk options source' schedule stopped root w := by
  unfold handleAll scopeOf at h
  unfold ofWalk
  simp only [h]

theorem ofWalk_stopped (options : Options) (source : Source) (schedule : Nat → List Nat)
    (stopped : Bool) (root : Path) (w : Walk) :
    (ofWalk options source schedule stopped root w).stopped
      = (handleAll options source schedule stopped root w.files).2.1 := by
  unfold ofWalk handleAll scopeOf
  dsimp only
  generalize (if options.parallel then _ else _) = handled
  obtain ⟨outcomes, stopped', events⟩ := handled
  cases outcomes <;> cases stopped' <;> rfl

/-- The analysis of a walk whose files all have their outcomes. -/
def ofOutcomes (options : Options) (root : Path) (w : Walk) (outcomes : List FileOutcome) :
    Analysis :=
  ⟨root, (absorbAll (startStats w) outcomes).1, options.keepsNested,
    (absorbAll (startStats w) outcomes).2⟩

/-- A run over a walk yields nothing exactly where the signal is given by its end. -/
theorem ofWalk_signal (hschedule : options.parallel = true → IsSchedule schedule)
    (source : Source) (stopped : Bool) (root : Path) (w : Walk) :
    (ofWalk options source schedule stopped root w).result =
      if signalled (scopeOf options root) source stopped w.files then .error .cancelled
      else .ok (ofOutcomes options root w
        (outcomesOf (scopeOf options root) source.contents w.files)) := by
  obtain ⟨hsignal, houtcomes⟩ := handleAll_signal hschedule source stopped root w.files
  rw [ofWalk_result]
  generalize handleAll options source schedule stopped root w.files = handled at hsignal houtcomes
  obtain ⟨outcomes, stopped', events⟩ := handled
  simp only at hsignal houtcomes
  subst hsignal
  cases hs : signalled (scopeOf options root) source stopped w.files with
  | true => simp
  | false => simp [houtcomes hs, ofOutcomes]

/-! ## §2 What is looked for before the walk -/

theorem exists?_eq_isOk (s : Storage) (here : Place) (root : Path) :
    s.exists? here root = (s.canonical here root).toOption.isSome := by
  unfold Storage.exists? Storage.canonical
  cases s.find here root <;> rfl

theorem exists?_of_canonical (h : s.canonical here root = .ok top) :
    s.exists? here root = true := by
  rw [exists?_eq_isOk, h]
  rfl

theorem exists?_of_canonical_error {fault : StorageFault}
    (h : s.canonical here root = .error fault) : s.exists? here root = false := by
  rw [exists?_eq_isOk, h]
  rfl

theorem firstUnsupported_cons (s : Storage) (root : Path) (f : Feature) (rest : List Feature) :
    firstUnsupported s root (f :: rest) =
      if f.isPresent s root then some (f, root.extend f.marker)
      else firstUnsupported s root rest := by
  simp only [firstUnsupported, Feature.isPresent, List.map_cons, List.find?_cons]
  by_cases hmarker : s.exists? [] (root.extend f.marker) = true
  · simp [hmarker]
  · simp [hmarker]

/-- The first feature that is present is the one that is found. -/
theorem firstUnsupported_of_first {before after : List Feature} {f : Feature}
    (hbefore : ∀ g ∈ before, g.isPresent s root = false) (hf : f.isPresent s root = true) :
    firstUnsupported s root (before ++ f :: after) = some (f, root.extend f.marker) := by
  induction before with
  | nil => rw [List.nil_append, firstUnsupported_cons, if_pos hf]
  | cons g before ih =>
    have hg := hbefore g (List.mem_cons_self ..)
    rw [List.cons_append, firstUnsupported_cons, hg, if_neg Bool.false_ne_true]
    exact ih fun g' hg' => hbefore g' (List.mem_cons_of_mem _ hg')

theorem firstUnsupported_eq_none {features : List Feature} :
    firstUnsupported s root features = none ↔ ∀ f ∈ features, f.isPresent s root = false := by
  simp [firstUnsupported, Feature.isPresent]

theorem run_of_missing (h : s.exists? here root = false) (options : Options) (source : Source)
    (schedule : Nat → List Nat) (stopped : Bool) :
    run s here options source schedule stopped root closed
      = ⟨.error (.rootMissing root), stopped, [.started root, .rootMissing root]⟩ := by
  unfold run
  rw [if_neg (by simp [h])]

theorem run_of_unsupported {feature : Feature} {marker : Path}
    (h : s.canonical here root = .ok top)
    (hfirst : firstUnsupported s top options.unsupported = some (feature, marker))
    (source : Source) (schedule : Nat → List Nat) (stopped : Bool) :
    run s here options source schedule stopped root closed
      = ⟨.error (.unsupported feature.name marker), stopped,
        [.started root, .unsupported feature.name marker]⟩ := by
  unfold run
  rw [if_pos (exists?_of_canonical h)]
  simp only [h, hfirst]

theorem run_of_supported (h : s.canonical here root = .ok top)
    (hfirst : firstUnsupported s top options.unsupported = none)
    (source : Source) (schedule : Nat → List Nat) (stopped : Bool) :
    run s here options source schedule stopped root closed =
      let walked := Walk.ofRoot s here top options.paths closed
      let r := ofWalk options source schedule stopped top walked.1
      { r with events := .started root :: walked.2 ++ r.events } := by
  unfold run
  rw [if_pos (exists?_of_canonical h)]
  simp only [h, hfirst]

/-! ## §3 The end of a run -/

/-- How a run ends: for want of a root, for an unsupported feature, by the stop signal, or with the
outcomes of all files of its walk. -/
theorem run_result (hschedule : options.parallel = true → IsSchedule schedule)
    (s : Storage) (here : Place) (source : Source) (stopped : Bool) (root : Path)
    (closed : Closed) :
    (run s here options source schedule stopped root closed).result =
      match s.canonical here root with
      | .error _ => .error (.rootMissing root)
      | .ok top =>
        match firstUnsupported s top options.unsupported with
        | some (feature, marker) => .error (.unsupported feature.name marker)
        | none =>
          let w := (Walk.ofRoot s here top options.paths closed).1
          if signalled (scopeOf options top) source stopped w.files then .error .cancelled
          else .ok (ofOutcomes options top w
            (outcomesOf (scopeOf options top) source.contents w.files)) := by
  cases hcanon : s.canonical here root with
  | error fault =>
    rw [run_of_missing (exists?_of_canonical_error hcanon)]
  | ok top =>
    cases hfirst : firstUnsupported s top options.unsupported with
    | some found =>
      rw [run_of_unsupported hcanon hfirst]
      simp only [hfirst]
    | none =>
      rw [run_of_supported hcanon hfirst]
      simp only [hfirst]
      exact ofWalk_signal hschedule source stopped top _

theorem run_stopped_of_supported (hschedule : options.parallel = true → IsSchedule schedule)
    (h : s.canonical here root = .ok top)
    (hnone : ∀ f ∈ options.unsupported, f.isPresent s top = false) (source : Source)
    (stopped : Bool) :
    (run s here options source schedule stopped root closed).stopped
      = signalled (scopeOf options top) source stopped
        (Walk.ofRoot s here top options.paths closed).1.files := by
  rw [run_of_supported h (firstUnsupported_eq_none.2 hnone)]
  exact (ofWalk_stopped ..).trans (handleAll_signal hschedule source stopped top _).1

/-! ## §4 What a run reads -/

/-- Before the walk nothing is read. -/
theorem run_of_present {f : Feature} (h : s.canonical here root = .ok top)
    (hf : f ∈ options.unsupported) (hpresent : f.isPresent s top = true)
    (source source' : Source) (schedule : Nat → List Nat) (stopped : Bool) :
    run s here options source schedule stopped root closed
      = run s here options source' schedule stopped root closed := by
  cases hfirst : firstUnsupported s top options.unsupported with
  | none =>
    have habsent := firstUnsupported_eq_none.1 hfirst f hf
    rw [hpresent] at habsent
    cases habsent
  | some found => rw [run_of_unsupported h hfirst, run_of_unsupported h hfirst]

/-- Runs are the same for two sources if the files of their walk are handled alike. -/
theorem run_congr {stopped : Bool}
    (h : ∀ top, s.canonical here root = .ok top →
      handleAll options source schedule stopped top
          (Walk.ofRoot s here top options.paths closed).1.files
        = handleAll options source' schedule stopped top
          (Walk.ofRoot s here top options.paths closed).1.files) :
    run s here options source schedule stopped root closed
      = run s here options source' schedule stopped root closed := by
  cases hcanon : s.canonical here root with
  | error fault =>
    have hmissing := exists?_of_canonical_error hcanon
    rw [run_of_missing hmissing, run_of_missing hmissing]
  | ok top =>
    cases hfirst : firstUnsupported s top options.unsupported with
    | some found => rw [run_of_unsupported hcanon hfirst, run_of_unsupported hcanon hfirst]
    | none =>
      rw [run_of_supported hcanon hfirst, run_of_supported hcanon hfirst]
      simp only [ofWalk_congr (h top hcanon)]

/-! ## §5 Runs that share a signal -/

/-- A run that is asked for. -/
structure Job where
  storage : Storage
  here : Place
  options : Options
  source : Source
  schedule : Nat → List Nat
  root : Path
  closed : Closed

def Job.run (job : Job) (stopped : Bool) : Run :=
  Analysis.run job.storage job.here job.options job.source job.schedule stopped job.root job.closed

/-- Runs one after another, each with the signal as the one before leaves it. -/
def runAll (stopped : Bool) : List Job → List Run
  | [] => []
  | job :: jobs =>
    let r := job.run stopped
    r :: runAll r.stopped jobs

theorem handleAll_stopped_flag (options : Options) (source : Source) (schedule : Nat → List Nat)
    (root : Path) (files : List Path) :
    (handleAll options source schedule true root files).2.1 = true := by
  unfold handleAll
  split
  · rw [onSchedule]
    exact (fill_stopped_flag ..).trans (Bool.true_or _)
  · rw [inTurn_stopped]

/-- A run that begins with the signal given yields nothing and leaves it given. -/
theorem run_of_stopped (s : Storage) (here : Place) (options : Options) (source : Source)
    (schedule : Nat → List Nat) (root : Path) (closed : Closed) :
    (run s here options source schedule true root closed).stopped = true ∧
      ∀ a, (run s here options source schedule true root closed).result ≠ .ok a := by
  cases hcanon : s.canonical here root with
  | error fault =>
    rw [run_of_missing (exists?_of_canonical_error hcanon)]
    exact ⟨rfl, fun a h => by cases h⟩
  | ok top =>
    cases hfirst : firstUnsupported s top options.unsupported with
    | some found =>
      rw [run_of_unsupported hcanon hfirst]
      exact ⟨rfl, fun a h => by cases h⟩
    | none =>
      rw [run_of_supported hcanon hfirst]
      have hflag := handleAll_stopped_flag options source schedule top
        (Walk.ofRoot s here top options.paths closed).1.files
      refine ⟨(ofWalk_stopped ..).trans hflag, fun a h => ?_⟩
      have hresult := ofWalk_result options source schedule true top
        (Walk.ofRoot s here top options.paths closed).1
      rw [h] at hresult
      split at hresult
      · next outcomes events hh =>
        rw [hh] at hflag
        cases hflag
      · cases hresult

/-- Once the signal is given, no later run yields anything. -/
theorem runAll_of_stopped (jobs : List Job) :
    ∀ r ∈ runAll true jobs, ∀ a, r.result ≠ .ok a := by
  induction jobs with
  | nil =>
    intro r hr
    cases hr
  | cons job jobs ih =>
    obtain ⟨hstopped, hresult⟩ := run_of_stopped job.storage job.here job.options job.source
      job.schedule job.root job.closed
    intro r hr
    rw [runAll] at hr
    rcases List.mem_cons.1 hr with rfl | hr
    · exact hresult
    · rw [show (job.run true).stopped = true from hstopped] at hr
      exact ih r hr

/-! ## §6 The account of a run -/

/-- Every file of a walk is accounted for: the graph and the numbers are those of the outcomes of
all files, and each file is of one kind. -/
structure Accounts (options : Options) (source : Source) (w : Walk) (a : Analysis) : Prop where
  outcomes : (a.raw, a.stats) = absorbAll (startStats w)
    (outcomesOf (scopeOf options a.root) source.contents w.files)
  kinds : a.stats.processed + a.stats.excludedByClass + a.stats.failed = w.files.length
  seen : a.stats.seen = w.files.length + a.stats.excludedByPath

theorem accounts_ofOutcomes (options : Options) (source : Source) (top : Path) (w : Walk) :
    Accounts options source w
      (ofOutcomes options top w (outcomesOf (scopeOf options top) source.contents w.files)) := by
  have hlength :
      (outcomesOf (scopeOf options top) source.contents w.files).length = w.files.length :=
    List.length_map _
  refine ⟨rfl, ?_, ?_⟩
  · rw [← hlength, ← length_eq_of_kinds]
    simp only [ofOutcomes, absorbAll_stats, Stats.after, startStats, Nat.zero_add]
  · simp only [ofOutcomes, absorbAll_stats, Stats.after, startStats]

/-- What a run ends with, and what it has not read by then. -/
structure EndsRightly (s : Storage) (here : Place) (options : Options) (source : Source)
    (schedule : Nat → List Nat) (stopped : Bool) (root : Path) (closed : Closed) : Prop where
  /-- The run ends for want of a root exactly where nothing stands at the root. -/
  rootMissing : (run s here options source schedule stopped root closed).result
      = .error (.rootMissing root) ↔ s.exists? here root = false
  /-- Otherwise the root has a path of its own, from which the features are looked for. -/
  canonical : s.exists? here root = true → ∃ top, s.canonical here root = .ok top
  /-- Then it ends for the first feature in the list that is present. -/
  unsupported : ∀ top before f after, s.canonical here root = .ok top →
    options.unsupported = before ++ f :: after → (∀ g ∈ before, g.isPresent s top = false) →
    f.isPresent s top = true →
    (run s here options source schedule stopped root closed).result
      = .error (.unsupported f.name (top.extend f.marker))
  /-- Then by the signal, if that is given by the time the files have been handled. -/
  cancelled : ∀ top, s.canonical here root = .ok top →
    (∀ f ∈ options.unsupported, f.isPresent s top = false) →
    ((run s here options source schedule stopped root closed).result = .error .cancelled ↔
      signalled (scopeOf options top) source stopped
        (Walk.ofRoot s here top options.paths closed).1.files = true)
  /-- Then with an analysis that accounts for every file of the walk. -/
  complete : ∀ top, s.canonical here root = .ok top →
    (∀ f ∈ options.unsupported, f.isPresent s top = false) →
    signalled (scopeOf options top) source stopped
      (Walk.ofRoot s here top options.paths closed).1.files = false →
    ∃ a, (run s here options source schedule stopped root closed).result = .ok a ∧ a.root = top ∧
      Accounts options source (Walk.ofRoot s here top options.paths closed).1 a
  /-- Such a run leaves the signal given if a read gave it. -/
  signal : ∀ top, s.canonical here root = .ok top →
    (∀ f ∈ options.unsupported, f.isPresent s top = false) →
    (run s here options source schedule stopped root closed).stopped
      = signalled (scopeOf options top) source stopped
        (Walk.ofRoot s here top options.paths closed).1.files
  /-- A run without a root reads nothing. -/
  unreadMissing : s.exists? here root = false → ∀ source',
    run s here options source schedule stopped root closed
      = run s here options source' schedule stopped root closed
  /-- Neither does one that ends for a feature. -/
  unreadUnsupported : ∀ top f, s.canonical here root = .ok top → f ∈ options.unsupported →
    f.isPresent s top = true → ∀ source',
    run s here options source schedule stopped root closed
      = run s here options source' schedule stopped root closed
  /-- Nor one that begins with the signal given. -/
  unreadStopped : stopped = true → ∀ source',
    run s here options source schedule stopped root closed
      = run s here options source' schedule stopped root closed
  /-- One file after another, none is read behind the one during whose read the signal is given. -/
  unreadBehind : ∀ top before file after, s.canonical here root = .ok top →
    options.parallel = false →
    (Walk.ofRoot s here top options.paths closed).1.files = before ++ file :: after →
    stopsAt (scopeOf options top) source file = true →
    ∀ source', source.AgreesOn source' (before ++ [file]) →
    run s here options source schedule stopped root closed
      = run s here options source' schedule stopped root closed
  /-- Once the signal is given, no later run yields anything. -/
  later : (run s here options source schedule stopped root closed).stopped = true → ∀ jobs,
    ∀ r ∈ runAll (run s here options source schedule stopped root closed).stopped jobs,
    ∀ a, r.result ≠ .ok a

/-- **How runs end**: a run that is not complete was ended by the first of a missing root, an
unsupported feature and the stop signal, and it has read nothing that it did not have to. -/
theorem endsRightly_run (hschedule : options.parallel = true → IsSchedule schedule)
    (s : Storage) (here : Place) (source : Source) (stopped : Bool) (root : Path)
    (closed : Closed) :
    EndsRightly s here options source schedule stopped root closed where
  rootMissing := by
    refine ⟨fun h => ?_, fun h => by rw [run_of_missing h]⟩
    rw [run_result hschedule] at h
    rw [exists?_eq_isOk]
    cases hcanon : s.canonical here root with
    | error fault => rfl
    | ok top =>
      rw [hcanon] at h
      dsimp only at h
      split at h
      · cases h
      · split at h <;> cases h
  canonical := by
    intro h
    rw [exists?_eq_isOk] at h
    cases hcanon : s.canonical here root with
    | error fault =>
      rw [hcanon] at h
      cases h
    | ok top => exact ⟨top, rfl⟩
  unsupported := by
    intro top before f after hcanon hlist hbefore hf
    have hfirst : firstUnsupported s top options.unsupported = some (f, top.extend f.marker) := by
      rw [hlist, firstUnsupported_of_first hbefore hf]
    rw [run_of_unsupported hcanon hfirst]
  cancelled := by
    intro top hcanon hnone
    rw [run_result hschedule, hcanon]
    simp only [firstUnsupported_eq_none.2 hnone]
    split
    · next hs => simp only [hs]
    · next hs => simp [hs]
  complete := by
    intro top hcanon hnone hs
    refine ⟨_, ?_, rfl, accounts_ofOutcomes options source top _⟩
    rw [run_result hschedule, hcanon]
    simp only [firstUnsupported_eq_none.2 hnone, hs, Bool.false_eq_true, if_false]
  signal := by
    intro top hcanon hnone
    exact run_stopped_of_supported hschedule hcanon hnone source stopped
  unreadMissing := by
    intro h source'
    rw [run_of_missing h, run_of_missing h]
  unreadUnsupported := by
    intro top f hcanon hf hpresent source'
    exact run_of_present hcanon hf hpresent source source' schedule stopped
  unreadStopped := by
    rintro rfl source'
    exact run_congr fun top _ => handleAll_of_stopped options source source' schedule top _
  unreadBehind := by
    intro top before file after hcanon hsequential hfiles hstop source' hagree
    refine run_congr fun top' hcanon' => ?_
    obtain rfl : top = top' := Except.ok.inj (hcanon.symm.trans hcanon')
    unfold handleAll
    rw [hsequential, if_neg Bool.false_ne_true, if_neg Bool.false_ne_true, hfiles]
    exact inTurn_of_agreesOn hagree hstop stopped
  later := by
    intro hstopped jobs
    rw [hstopped]
    exact runAll_of_stopped jobs

/-- A run in parallel, with the signal given while the last file of its walk is read first. -/
theorem endsRightly_nestedTree :
    let options := { everything with parallel := true }
    let source : Source := ⟨nestedTree.contents [], fun p => p = nestedFile⟩
    let schedule := fun n => (List.range n).reverse
    (options.parallel = true → IsSchedule schedule) ∧
      (Walk.ofRoot nestedTree [] [0x2F, 0x61] none).1.files.getLast? = some nestedFile ∧
      (run nestedTree [] options source schedule false [0x61]).result = .error .cancelled := by
  intro options source schedule
  have hschedule : options.parallel = true → IsSchedule schedule := fun _ => isSchedule_reverse
  have hcanon : nestedTree.canonical [] [0x61] = .ok [0x2F, 0x61] := by decide +kernel
  have hlast : (Walk.ofRoot nestedTree [] [0x2F, 0x61] none).1.files.getLast?
      = some nestedFile := by
    decide +kernel
  have hsignal : signalled (scopeOf options [0x2F, 0x61]) source false
      (Walk.ofRoot nestedTree [] [0x2F, 0x61] none).1.files = true := by decide +kernel
  have hends := endsRightly_run hschedule nestedTree [] source false [0x61] .nowhere
  refine ⟨hschedule, hlast, (hends.cancelled [0x2F, 0x61] hcanon ?_).2 hsignal⟩
  intro f hf
  cases hf

end Analysis

end ClassGraph
