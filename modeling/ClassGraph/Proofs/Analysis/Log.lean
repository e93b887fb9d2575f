/-
ClassGraph.Proofs.Analysis.Log — nothing goes wrong without being told.

The events of a run that handles one file after another are those of its
beginning, of the walk, of each file in turn, and of its end (`events_of_run`).
Each of these parts tells as much as it counts: a walk one event for each
place that it could not visit and each file that it left out, a file one for
its failure, its being left out, or each of its bad lines (`told_outcome`). So
the numbers of the run are also numbers of events: `logged_of_run`.
-/
import ClassGraph.Proofs.Analysis.Accounting
import ClassGraph.Proofs.Analysis.Naming
import ClassGraph.Proofs.Walk.Exact

namespace ClassGraph

/-! ## §1 Events by their messages -/

namespace Event

variable {e : Event}

/-- The file and the number of the line that is skipped, where the event tells of one. -/
def skippedLine? : Event → Option (Path × Nat)
  | badLine path number _ => some (path, number)
  | _ => none

/-- The character with which the message of an event begins. -/
def initial : Event → Char
  | started _ | cancelled => 'A'
  | rootMissing _ => 'I'
  | unsupported .. => 'U'
  | finished .. | unprinted _ => 'F'
  | unvisited .. | unnamed .. | unreadable .. | unsaved .. => 'C'
  | excludedPath _ | excludedClass _ | badLine .. => 'S'
  | tooDeep _ => 'g'
  | markers _ => 'G'
  | decoding .. => 'D'

/-- Whether an event tells of a place that could not be visited. -/
def isUnvisited : Event → Bool
  | unvisited .. => true
  | _ => false

theorem head?_message (e : Event) : e.message.head? = some e.initial := by
  cases e <;> rfl

/-- Three kinds of events tell that something is skipped. -/
theorem skip_cases (h : e.message.head? = some 'S') :
    (∃ path, e = .excludedPath path) ∨ (∃ name, e = .excludedClass name) ∨
      ∃ path number cause, e = .badLine path number cause := by
  have hinitial : e.initial = 'S' := Option.some.inj (e.head?_message.symm.trans h)
  cases e with
  | excludedPath path => exact .inl ⟨path, rfl⟩
  | excludedClass name => exact .inr (.inl ⟨name, rfl⟩)
  | badLine path number cause => exact .inr (.inr ⟨path, number, cause, rfl⟩)
  | _ => exact absurd hinitial (by simp [initial])

/-- The message of an event that tells of a file left out by its path. -/
def skippedPath : Text := "Skipped by path filter".toList

/-- The message of an event that tells of a file left out by its class. -/
def skippedClass : Text := "Skipped by class filter".toList

theorem skippedPath_ne : skippedPath ≠ skippedClass := by decide

/-- How the message of an event begins that tells of a line that is skipped. -/
def skippingLine : Text := "Skipping line: ".toList

theorem message_badLine (path : Path) (number : Nat) (cause : Utf8.DecodeError) :
    (badLine path number cause).message[5]? = some 'i' := rfl

theorem message_eq_skippedPath :
    e.message = skippedPath ↔ ∃ path, e = .excludedPath path := by
  constructor
  · intro h
    have hhead : e.message.head? = some 'S' := by rw [h]; rfl
    rcases skip_cases hhead with hpath | ⟨name, rfl⟩ | ⟨path, number, cause, rfl⟩
    · exact hpath
    · exact absurd h.symm skippedPath_ne
    · have hletter := message_badLine path number cause
      rw [h] at hletter
      exact absurd hletter (by decide)
  · rintro ⟨path, rfl⟩
    rfl

theorem message_eq_skippedClass :
    e.message = skippedClass ↔ ∃ name, e = .excludedClass name := by
  constructor
  · intro h
    have hhead : e.message.head? = some 'S' := by rw [h]; rfl
    rcases skip_cases hhead with ⟨path, rfl⟩ | hname | ⟨path, number, cause, rfl⟩
    · exact absurd h skippedPath_ne
    · exact hname
    · have hletter := message_badLine path number cause
      rw [h] at hletter
      exact absurd hletter (by decide)
  · rintro ⟨name, rfl⟩
    rfl

/-- The events that tell of a skipped line are told by their message. -/
theorem isSome_skippedLine? : e.skippedLine?.isSome = true ↔ skippingLine <+: e.message := by
  constructor
  · intro h
    cases e with
    | badLine path number cause => exact List.prefix_append ..
    | _ => cases h
  · rintro ⟨rest, h⟩
    -- `Skipping` differs from both `Skipped` in its sixth letter.
    have hhead : e.message.head? = some 'S' := by rw [← h]; rfl
    have hletter : e.message[5]? = some 'i' := by rw [← h]; rfl
    rcases skip_cases hhead with ⟨path, rfl⟩ | ⟨name, rfl⟩ | ⟨path, number, cause, rfl⟩
    · rw [message_eq_skippedPath.2 ⟨path, rfl⟩] at hletter
      exact absurd hletter (by decide)
    · rw [message_eq_skippedClass.2 ⟨name, rfl⟩] at hletter
      exact absurd hletter (by decide)
    · rfl

end Event

/-! ## §2 What is told of a file -/

/-- What some events tell: how many warnings there are and how many files are left out by either
selection, which lines are skipped, which events are those of places that could not be visited, and
that there is no error among them. -/
structure Told (events : List Event) (warnings byPath byClass : Nat)
    (skipped : List (Path × Nat)) (unvisited : List Event) : Prop where
  warnings : events.countP (fun e => e.level = .warn) = warnings
  errors : ∀ e ∈ events, e.level ≠ .error
  byPath : events.countP (fun e => e.message = Event.skippedPath) = byPath
  byClass : events.countP (fun e => e.message = Event.skippedClass) = byClass
  skipped : events.filterMap Event.skippedLine? = skipped
  unvisited : events.filter Event.isUnvisited = unvisited

namespace Told

variable {events more : List Event} {warnings byPath byClass warnings' byPath' byClass' : Nat}
  {skipped skipped' : List (Path × Nat)} {unvisited unvisited' : List Event}

theorem nil : Told [] 0 0 0 [] [] where
  warnings := rfl
  errors := fun _ he => absurd he List.not_mem_nil
  byPath := rfl
  byClass := rfl
  skipped := rfl
  unvisited := rfl

/-- What two parts of a log tell adds up. -/
theorem append (h : Told events warnings byPath byClass skipped unvisited)
    (h' : Told more warnings' byPath' byClass' skipped' unvisited') :
    Told (events ++ more) (warnings + warnings') (byPath + byPath') (byClass + byClass')
      (skipped ++ skipped') (unvisited ++ unvisited') where
  warnings := by rw [List.countP_append, h.warnings, h'.warnings]
  errors := by
    intro e he
    rcases List.mem_append.1 he with he | he
    · exact h.errors e he
    · exact h'.errors e he
  byPath := by rw [List.countP_append, h.byPath, h'.byPath]
  byClass := by rw [List.countP_append, h.byClass, h'.byClass]
  skipped := by rw [List.filterMap_append, h.skipped, h'.skipped]
  unvisited := by rw [List.filter_append, h.unvisited, h'.unvisited]

/-- An event of another kind than those that tell of something skipped. -/
theorem plain {e : Event} (herror : e.level ≠ .error) (hinitial : e.initial ≠ 'S') :
    Told [e] (if e.level = .warn then 1 else 0) 0 0 [] ([e].filter Event.isUnvisited) := by
  have hhead : e.message.head? ≠ some 'S' := by
    rw [e.head?_message]
    exact fun h => hinitial (Option.some.inj h)
  have hpath : e.message ≠ Event.skippedPath := fun h => hhead (by rw [h]; rfl)
  have hclass : e.message ≠ Event.skippedClass := fun h => hhead (by rw [h]; rfl)
  constructor
  case warnings => simp [List.countP_cons]
  case errors => simpa using herror
  case byPath => simp [hpath]
  case byClass => simp [hclass]
  case skipped =>
    cases e with
    | badLine path number cause => exact absurd rfl hinitial
    | _ => rfl
  case unvisited => rfl

theorem excludedPath (path : Path) : Told [.excludedPath path] 0 1 0 [] [] := by
  have hmessage := Event.message_eq_skippedPath.2 ⟨path, rfl⟩
  constructor
  case warnings => rfl
  case errors => simp [Event.level]
  case byPath => simp [hmessage]
  case byClass => simp [hmessage, Event.skippedPath_ne]
  case skipped => rfl
  case unvisited => rfl

theorem excludedClass (name : Name) : Told [.excludedClass name] 0 0 1 [] [] := by
  have hmessage := Event.message_eq_skippedClass.2 ⟨name, rfl⟩
  constructor
  case warnings => rfl
  case errors => simp [Event.level]
  case byPath => simp [hmessage, Event.skippedPath_ne.symm]
  case byClass => simp [hmessage]
  case skipped => rfl
  case unvisited => rfl

theorem badLine (path : Path) (number : Nat) (cause : Utf8.DecodeError) :
    Told [.badLine path number cause] 1 0 0 [(path, number)] [] := by
  have hpath : (Event.badLine path number cause).message ≠ Event.skippedPath := fun h => by
    obtain ⟨_, he⟩ := Event.message_eq_skippedPath.1 h
    cases he
  have hclass : (Event.badLine path number cause).message ≠ Event.skippedClass := fun h => by
    obtain ⟨_, he⟩ := Event.message_eq_skippedClass.1 h
    cases he
  constructor
  case warnings => rfl
  case errors => simp [Event.level]
  case byPath => simp [hpath]
  case byClass => simp [hclass]
  case skipped => rfl
  case unvisited => rfl

theorem of_tooDeep (h : ∀ e ∈ events, ∃ depth, e = .tooDeep depth) : Told events 0 0 0 [] [] := by
  induction events with
  | nil => exact nil
  | cons e rest ih =>
    obtain ⟨depth, rfl⟩ := h e (List.mem_cons_self ..)
    have hfirst : Told [.tooDeep depth] 0 0 0 [] [] :=
      plain (e := .tooDeep depth) (by simp [Event.level]) (by simp [Event.initial])
    exact hfirst.append (ih fun e' he' => h e' (List.mem_cons_of_mem _ he'))

/-- What many parts of a log tell adds up, where none tells of a place that could not be visited. -/
theorem flatMap {α : Type} {parts : α → List Event} {warnings byPath byClass : α → Nat}
    {skipped : α → List (Path × Nat)}
    (h : ∀ x, Told (parts x) (warnings x) (byPath x) (byClass x) (skipped x) []) (l : List α) :
    Told (l.flatMap parts) (l.map warnings).sum (l.map byPath).sum (l.map byClass).sum
      (l.flatMap skipped) [] := by
  induction l with
  | nil => exact nil
  | cons x rest ih =>
    simp only [List.flatMap_cons, List.map_cons, List.sum_cons]
    exact (h x).append ih

end Told

namespace Scope

variable {scope : Scope} {contents : Contents} {file : Path}

theorem told_addLine (scope : Scope) (path : Path) (literal : Name) (t : Tally) (number : Nat)
    (line : Bytes) :
    let bad := badLinesFrom number [line]
    Told (scope.addLine path literal t number line).2 bad.length 0 0
      (bad.map fun n => (path, n)) [] := by
  intro bad
  have hbad : bad = if isBadLine line then [number] else [] := badLinesFrom_cons number line []
  rw [hbad]
  cases hline : isBadLine line with
  | true =>
    obtain ⟨-, cause, hevents⟩ := addLine_of_bad hline scope path literal t number
    rw [hevents]
    exact Told.badLine path number cause
  | false => exact Told.of_tooDeep (addLine_of_text hline scope path literal t number).2

/-- The lines of a file tell the numbers of those that are skipped. -/
theorem told_addLines (scope : Scope) (path : Path) (literal : Name) (t : Tally) (number : Nat)
    (lines : List Bytes) :
    let bad := badLinesFrom number lines
    Told (scope.addLines path literal t number lines).2 bad.length 0 0
      (bad.map fun n => (path, n)) [] := by
  induction lines generalizing t number with
  | nil => exact Told.nil
  | cons line rest ih =>
    have hfirst := scope.told_addLine path literal t number line
    have hrest := ih (scope.addLine path literal t number line).1 (number + 1)
    have hbad : badLinesFrom number (line :: rest)
        = badLinesFrom number [line] ++ badLinesFrom (number + 1) rest := by
      rw [badLinesFrom_cons, badLinesFrom_cons]
      split <;> rfl
    intro bad
    rw [addLines_cons, show bad = _ from hbad, List.length_append, List.map_append]
    exact hfirst.append hrest

/-- The lines of a file that are skipped, where it is processed. -/
def skippedIn (scope : Scope) (contents : Contents) (file : Path) : List (Path × Nat) :=
  ((scope.processed? contents file).map fun content =>
    (badLines content).map fun n => (file, n)).getD []

/-- What is told of a file: its failure, that its class is left out, or its bad lines. -/
theorem told_outcome (scope : Scope) (contents : Contents) (file : Path) :
    let outcome := (scope.outcome contents file).1
    Told (scope.outcome contents file).2 ((if outcome.isFailed then 1 else 0) + outcome.failedLines)
      0 (if outcome.isExcluded then 1 else 0) (scope.skippedIn contents file) [] := by
  have h := scope.handled_outcome contents file
  unfold skippedIn
  generalize scope.outcome contents file = handled at h ⊢
  cases h with
  | unnamed cause _ hnone =>
    rw [hnone]
    exact Told.plain (e := .unnamed file cause) (by simp [Event.level]) (by simp [Event.initial])
  | excluded literal _ hnone =>
    rw [hnone]
    exact Told.excludedClass literal.nearestNamed
  | unreadable cause _ _ hnone =>
    rw [hnone]
    exact Told.plain (e := .unreadable file cause) (by simp [Event.level]) (by simp [Event.initial])
  | counted literal content _ _ hprocessed =>
    have htold := scope.told_addLines file literal ⟨literal.nearestNamed, SortedMap.empty, 0⟩ 1
      (cut lineFeed content)
    have hfailed : (scope.tally file literal content).1.failedLines = (badLines content).length :=
      scope.tally_failedLines file literal content
    rw [hprocessed]
    simp only [FileOutcome.isFailed, FileOutcome.isExcluded, FileOutcome.failedLines,
      Bool.false_eq_true, if_false, Nat.zero_add, hfailed]
    exact htold

end Scope

/-! ## §3 What is told of a walk -/

namespace Walk

variable {s : Storage} {here place : Place} {root : Path} {closed : Closed}

/-- The events that tell of the places that a walk comes upon and cannot visit. -/
def unvisitedEvents (found : List Visit) : List Event :=
  (found.filterMap Visit.unvisited?).map fun (path, cause) => unvisitedEvent path cause

/-- A walk tells of each place that it cannot visit and each file that it leaves out. -/
theorem told_ofVisits (paths : Option Selection) (found : List Visit) :
    Told (ofVisits paths found).2 (ofVisits paths found).1.unvisited
      (ofVisits paths found).1.excluded 0 [] (unvisitedEvents found) := by
  induction found with
  | nil => exact Told.nil
  | cons visit rest ih =>
    cases visit with
    | unvisited path cause =>
      have hfirst : Told [unvisitedEvent path cause] 1 0 0 [] [unvisitedEvent path cause] :=
        Told.plain (by simp [unvisitedEvent, Event.level])
          (by simp [unvisitedEvent, Event.initial])
      have htold := hfirst.append ih
      rw [Nat.add_comm 1, Nat.zero_add] at htold
      exact htold
    | file file =>
      unfold ofVisits
      cases Selection.passes paths (Path.display file) with
      | true => exact ih
      | false =>
        have htold := (Told.excludedPath file).append ih
        rw [Nat.zero_add, Nat.add_comm 1, List.nil_append] at htold
        exact htold

theorem told_ofRoot (s : Storage) (here : Place) (root : Path) (paths : Option Selection)
    (closed : Closed) :
    Told (ofRoot s here root paths closed).2 (ofRoot s here root paths closed).1.unvisited
      (ofRoot s here root paths closed).1.excluded 0 []
      (unvisitedEvents (visits s here root closed)) :=
  told_ofVisits paths (visits s here root closed)

/-- Below a directory, the places that a walk cannot visit are the closed directories there that lie
behind no other one, the first directory among them. -/
theorem length_unvisited_visitsBelow (s : Storage) (closed : Closed) (root : Path) (place : Place) :
    ((visitsBelow s closed root place).filterMap Visit.unvisited?).length
      = (([], Entry.directory) :: s.entriesBelow place).countP fun (segments, e) =>
        e = .directory && isOpen closed root segments
          && (closed (pathBelow root segments)).isSome := by
  rw [visitsBelow, List.filterMap_filterMap, List.length_filterMap_eq_countP]
  refine List.countP_congr fun entry _ => ?_
  obtain ⟨segments, e⟩ := entry
  rw [unvisited?_visit?]
  by_cases hdir : e = .directory <;> by_cases hopen : isOpen closed root segments = true <;>
    simp [hdir, hopen]

/-- A walk lists no file twice. -/
theorem nodup_files (hnamed : s.isNamed = true) (hroot : root.isAbsolute = true) (here : Place)
    (paths : Option Selection) (closed : Closed) :
    (ofRoot s here root paths closed).1.files.Nodup := by
  rw [ofRoot, files_ofVisits]
  refine List.Nodup.filter _ ?_
  rcases visits_cases s here root closed with ⟨place, -, hall⟩ | hall | hall | ⟨fault, hall⟩
  · rw [hall, filterMap_file?_visitsBelow]
    exact nodup_sources hnamed (Path.ne_nil_of_isAbsolute hroot) place closed
  · rw [hall]
    exact List.nodup_singleton root
  · rw [hall]
    exact List.nodup_nil
  · rw [hall]
    exact List.nodup_nil

end Walk

/-! ## §4 What is told of a run -/

namespace Analysis

variable {st : Storage} {here place : Place} {options : Options} {source : Source}
  {schedule : Nat → List Nat} {stopped : Bool} {root : Path}
  {closed : Closed} {a : Analysis} {scope : Scope}
  {files : List Path}

/-- Files handled one after another need no schedule. -/
theorem isSchedule_of_sequential (hsequential : options.parallel = false) :
    options.parallel = true → IsSchedule schedule := fun hparallel => by
  rw [hsequential] at hparallel
  cases hparallel

/-- Files handled one after another are told of in their order. -/
theorem inTurn_events (h : signalled scope source stopped files = false) :
    (inTurn scope source stopped files).2.2
      = files.flatMap fun file => (scope.outcome source.contents file).2 := by
  induction files generalizing stopped with
  | nil => rfl
  | cons file rest ih =>
    simp only [signalled, List.any_cons, Bool.or_eq_false_iff] at h
    obtain ⟨rfl, hfile, hrest⟩ := h
    have hnext : signalled scope source (stopsAt scope source file) rest = false := by
      rw [signalled, hfile, hrest]
      rfl
    simp only [inTurn, handle_running, ih hnext, List.flatMap_cons]

theorem ofWalk_events {w : Walk} (hsequential : options.parallel = false)
    (h : (ofWalk options source schedule stopped root w).result = .ok a) :
    (ofWalk options source schedule stopped root w).events
      = (w.files.flatMap fun file => ((scopeOf options root).outcome source.contents file).2)
        ++ [.finished a.stats a.raw.vertexCount a.raw.edgeCount] := by
  rw [ofWalk_signal (isSchedule_of_sequential hsequential)] at h
  split at h
  · cases h
  · next hsignal =>
    cases h
    rw [Bool.not_eq_true] at hsignal
    obtain ⟨hflag, houtcomes⟩ := inTurn_signal (scopeOf options root) source stopped w.files
    have hall : inTurn (scopeOf options root) source stopped w.files
        = (some (outcomesOf (scopeOf options root) source.contents w.files), false,
          w.files.flatMap fun file => ((scopeOf options root).outcome source.contents file).2) :=
      Prod.ext (houtcomes hsignal) (Prod.ext (hflag.trans hsignal) (inTurn_events hsignal))
    unfold ofWalk
    rw [hsequential]
    unfold scopeOf at hall ⊢
    simp only [Bool.false_eq_true, if_false, hall]
    rfl

/-- The events of a run, in order: its beginning, the walk, each file, and its end. -/
theorem events_of_run (hsequential : options.parallel = false)
    (hrun : (run st here options source schedule stopped root closed).result = .ok a) :
    (run st here options source schedule stopped root closed).events
      = [.started root] ++ (Walk.ofRoot st here a.root options.paths closed).2
        ++ ((Walk.ofRoot st here a.root options.paths closed).1.files.flatMap fun file =>
          ((scopeOf options a.root).outcome source.contents file).2)
        ++ [.finished a.stats a.raw.vertexCount a.raw.edgeCount] := by
  obtain ⟨top, htop, hnone, -⟩ := (exists_ok_iff
    (isSchedule_of_sequential hsequential) st here source stopped root closed).1 ⟨a, hrun⟩
  obtain rfl : a.root = top := Except.ok.inj ((run_eq_ok hrun).1.symm.trans htop)
  have hrun' := hrun
  rw [run_of_supported htop (firstUnsupported_eq_none.2 hnone)] at hrun' ⊢
  simp only [ofWalk_events hsequential hrun', List.nil_append, List.cons_append, List.append_assoc]

theorem sum_warnings (scope : Scope) (contents : Contents) (files : List Path) :
    (files.map fun file => (if (scope.outcome contents file).1.isFailed then 1 else 0)
        + (scope.outcome contents file).1.failedLines).sum
      = (outcomesOf scope contents files).countP FileOutcome.isFailed
        + ((outcomesOf scope contents files).map FileOutcome.failedLines).sum := by
  induction files with
  | nil => rfl
  | cons file rest ih =>
    simp only [outcomesOf, List.map_cons, List.sum_cons, List.countP_cons] at ih ⊢
    omega

theorem sum_excluded (scope : Scope) (contents : Contents) (files : List Path) :
    (files.map fun file => if (scope.outcome contents file).1.isExcluded then 1 else 0).sum
      = (outcomesOf scope contents files).countP FileOutcome.isExcluded := by
  induction files with
  | nil => rfl
  | cons file rest ih =>
    simp only [outcomesOf, List.map_cons, List.sum_cons, List.countP_cons] at ih ⊢
    omega

/-- What a run tells is what it counts. -/
theorem told_of_run (hsequential : options.parallel = false)
    (hrun : (run st here options source schedule stopped root closed).result = .ok a) :
    Told (run st here options source schedule stopped root closed).events
      (a.stats.unvisited + a.stats.failed + a.stats.failedLines) a.stats.excludedByPath
      a.stats.excludedByClass
      ((Walk.ofRoot st here a.root options.paths closed).1.files.flatMap
        ((scopeOf options a.root).skippedIn source.contents))
      (Walk.unvisitedEvents (Walk.visits st here a.root closed)) := by
  have hstarted : Told [.started root] 0 0 0 [] [] :=
    Told.plain (by simp [Event.level]) (by simp [Event.initial])
  have hwalk := Walk.told_ofRoot st here a.root options.paths closed
  have hfiles := Told.flatMap ((scopeOf options a.root).told_outcome source.contents)
    (Walk.ofRoot st here a.root options.paths closed).1.files
  have hfinished : Told [.finished a.stats a.raw.vertexCount a.raw.edgeCount] 0 0 0 [] [] :=
    Told.plain (by simp [Event.level]) (by simp [Event.initial])
  have htold := ((hstarted.append hwalk).append hfiles).append hfinished
  rw [← events_of_run hsequential hrun, sum_warnings, sum_excluded] at htold
  have hstats := stats_of_run hrun
  simp only [Stats.after, startStats, Nat.zero_add] at hstats
  rw [hstats]
  simpa [Nat.add_assoc] using htold

/-! ## §5 The log of a run -/

/-- The numbers of the lines of a file of which the events tell that they are skipped, in order. -/
def linesSkipped (file : Path) (events : List Event) : List Nat :=
  ((events.filterMap Event.skippedLine?).filter fun skipped => skipped.1 = file).map (·.2)

theorem filter_skippedIn (scope : Scope) (contents : Contents) (file other : Path) :
    ((scope.skippedIn contents other).filter fun skipped => skipped.1 = file)
      = if other = file then scope.skippedIn contents file else [] := by
  unfold Scope.skippedIn
  by_cases hother : other = file
  · subst hother
    rw [if_pos rfl, List.filter_eq_self]
    cases scope.processed? contents other with
    | none => simp
    | some content => simp
  · rw [if_neg hother, List.filter_eq_nil_iff]
    cases scope.processed? contents other with
    | none => simp
    | some content => simp [hother]

/-- Of what is skipped in different files, each has its own part. -/
theorem filter_flatMap_skippedIn (scope : Scope) (contents : Contents) {file : Path}
    (hnodup : files.Nodup) (hfile : file ∈ files) :
    ((files.flatMap (scope.skippedIn contents)).filter fun skipped => skipped.1 = file)
      = scope.skippedIn contents file := by
  induction files with
  | nil => cases hfile
  | cons first rest ih =>
    obtain ⟨hfirst, hrest⟩ := List.nodup_cons.1 hnodup
    -- The file comes up once, so either the first part is its own and no later one is, or the
    -- first part is of another file.
    rw [List.flatMap_cons, List.filter_append, filter_skippedIn]
    rcases List.mem_cons.1 hfile with rfl | hmem
    · have hnone : ((rest.flatMap (scope.skippedIn contents)).filter
          fun skipped => skipped.1 = file) = [] := by
        rw [List.filter_flatMap, List.flatMap_eq_nil_iff]
        intro other hother
        rw [filter_skippedIn, if_neg]
        rintro rfl
        exact hfirst hother
      rw [if_pos rfl, hnone, List.append_nil]
    · have hne : first ≠ file := by
        rintro rfl
        exact hfirst hmem
      rw [if_neg hne, List.nil_append, ih hrest hmem]

/-- How the log of a run tells what its numbers count. -/
structure Logged (st : Storage) (here : Place) (options : Options) (contents : Contents)
    (closed : Closed) (a : Analysis) (events : List Event) : Prop where
  /-- There is a warning for each place that could not be visited, each file that failed, and each
  line that failed. -/
  warnings : events.countP (fun e => e.level = .warn)
    = a.stats.unvisited + a.stats.failed + a.stats.failedLines
  errors : ∀ e ∈ events, e.level ≠ .error
  byPath : events.countP (fun e => e.message = Event.skippedPath) = a.stats.excludedByPath
  byClass : events.countP (fun e => e.message = Event.skippedClass) = a.stats.excludedByClass
  /-- Each place that the walk comes upon and cannot visit has its own event, in the order of the
  walk. -/
  unvisited : events.filter Event.isUnvisited
    = Walk.unvisitedEvents (Walk.visits st here a.root closed)
  /-- Below a directory these places are the closed directories behind no other one, however many
  files there are beside them, and so many are counted. -/
  unvisitedBelow : ∀ place, st.find here a.root = .ok (place, .directory) →
    a.stats.unvisited = ((([], .directory) :: st.entriesBelow place).countP fun (segments, e) =>
      e = .directory && Walk.isOpen closed a.root segments
        && (closed (Walk.pathBelow a.root segments)).isSome) ∧
    ∀ e, (e ∈ events ∧ e.isUnvisited = true) ↔ ∃ segments cause,
      st.at? (place ++ segments) = some .directory ∧
      closed (Walk.pathBelow a.root segments) = some cause ∧
      (∀ above name below, segments = above ++ name :: below →
        closed (Walk.pathBelow a.root above) = none) ∧
      e = Walk.unvisitedEvent (Walk.pathBelow a.root segments) cause
  /-- A closed directory keeps from the run the files behind it and no others. -/
  beside : st.isNamed = true → ∀ place, st.find here a.root = .ok (place, .directory) →
    (Walk.ofRoot st here a.root options.paths closed).1.files
      = (Walk.ofRoot st here a.root options.paths).1.files.filter fun file =>
        Walk.isOpen closed a.root (Walk.segmentsBelow a.root file)
  /-- Events tell of skipped lines by their message. -/
  messages : ∀ e ∈ events, e.skippedLine?.isSome = true ↔ Event.skippingLine <+: e.message
  /-- Skipped lines are told of file after file. -/
  skipped : events.filterMap Event.skippedLine?
    = (Walk.ofRoot st here a.root options.paths closed).1.files.flatMap
      ((scopeOf options a.root).skippedIn contents)
  /-- Of a file that is processed, the lines that are not text are told by their numbers, in
  increasing order. For the log to tell files apart, entries must have names, so that no two files
  have one path. -/
  lines : st.isNamed = true → ∀ file ∈ (Walk.ofRoot st here a.root options.paths closed).1.files,
    ∀ content, (scopeOf options a.root).processed? contents file = some content →
    (linesSkipped file events).Pairwise (· < ·) ∧
      ∀ n, n ∈ linesSkipped file events ↔ ∃ i line, n = i + 1 ∧
        (cut Scope.lineFeed content)[i]? = some line ∧ Scope.isBadLine line = true

/-- Below a directory a run counts the closed directories behind no other one. -/
theorem unvisited_of_run
    (hrun : (run st here options source schedule stopped root closed).result = .ok a)
    (hfind : st.find here a.root = .ok (place, .directory)) :
    a.stats.unvisited = (([], .directory) :: st.entriesBelow place).countP fun (segments, e) =>
      e = .directory && Walk.isOpen closed a.root segments
        && (closed (Walk.pathBelow a.root segments)).isSome := by
  have hcounted : a.stats.unvisited
      = (Walk.ofRoot st here a.root options.paths closed).1.unvisited := by
    rw [stats_of_run hrun]
    rfl
  rw [hcounted, Walk.ofRoot, Walk.unvisited_ofVisits, Walk.visits_of_find hfind,
    Walk.length_unvisited_visitsBelow]

/-- **Nothing goes wrong without being told**: the log of a run that handles one file after another
has as many warnings as the numbers of the run count, and no error; it tells of each place that
cannot be visited, of each file that a selection leaves out, and for each file that is processed the
numbers of its bad lines. -/
theorem logged_of_run (hsequential : options.parallel = false)
    (hrun : (run st here options source schedule stopped root closed).result = .ok a) :
    Logged st here options source.contents closed a
      (run st here options source schedule stopped root closed).events where
  warnings := (told_of_run hsequential hrun).warnings
  errors := (told_of_run hsequential hrun).errors
  byPath := (told_of_run hsequential hrun).byPath
  byClass := (told_of_run hsequential hrun).byClass
  unvisited := (told_of_run hsequential hrun).unvisited
  unvisitedBelow := by
    intro place hfind
    refine ⟨unvisited_of_run hrun hfind, fun e => ?_⟩
    have hdir := Storage.at?_of_find hfind
    rw [← List.mem_filter, (told_of_run hsequential hrun).unvisited, Walk.visits_of_find hfind,
      Walk.unvisitedEvents, List.mem_map]
    constructor
    · intro h
      obtain ⟨⟨path, cause⟩, hmem, rfl⟩ := h
      obtain ⟨segments, hat, hopen, rfl, hclosed⟩ := (Walk.mem_unvisited_visitsBelow hdir).1 hmem
      exact ⟨segments, cause, hat, hclosed, Walk.isOpen_iff.1 hopen, rfl⟩
    · intro h
      obtain ⟨segments, cause, hat, hclosed, habove, rfl⟩ := h
      refine ⟨(Walk.pathBelow a.root segments, cause), ?_, rfl⟩
      exact (Walk.mem_unvisited_visitsBelow hdir).2
        ⟨segments, hat, Walk.isOpen_iff.2 habove, rfl, hclosed⟩
  beside := fun hnamed _ hfind => Walk.files_ofRoot_closed hfind hnamed options.paths closed
  messages := fun _ _ => Event.isSome_skippedLine?
  skipped := (told_of_run hsequential hrun).skipped
  lines := by
    intro hnamed file hfile content hprocessed
    have hroot := Storage.isAbsolute_of_canonical (run_eq_ok hrun).1
    have hnodup := Walk.nodup_files hnamed hroot here options.paths closed
    have hskipped := (told_of_run hsequential hrun).skipped
    have hlines : linesSkipped file
        (run st here options source schedule stopped root closed).events
        = Scope.badLines content := by
      rw [linesSkipped, hskipped, filter_flatMap_skippedIn _ _ hnodup hfile, Scope.skippedIn,
        hprocessed]
      simp
    rw [hlines]
    exact ⟨Scope.pairwise_badLinesFrom 1 _, fun n => Scope.mem_badLines⟩

/-- The directory of the mixed run with one more directory in it, `d`, which holds `G`. -/
def guardedTree : Storage :=
  (mixedTree.put [[0x61]] [0x64] .directory).put [[0x61], [0x64]] (fileName ['G'])
    (.file [0x4C, 0x44, 0x3B] false)

/-- Listing the entries of `d` is refused, and reading the file of the class without a name. -/
def guardedRefused : Refusal := fun place =>
  if place = [[0x61], [0x64]] then some ['n', 'o'] else namelessRefused place

/-- A run that comes upon a directory that is closed, a file that it cannot read and a line that is
not text, and leaves files out by their paths and by their classes. -/
def guardedRun : Run :=
  run guardedTree [] withoutEF ⟨guardedTree.contentsBut [] guardedRefused, fun _ => false⟩
    (fun _ => []) false [0x61] (guardedTree.closedBut [] guardedRefused)

theorem linesSkipped_guardedRun : linesSkipped nestedFile guardedRun.events = [2] := by
  decide +kernel

/-- One closed directory, one bad line, one file that is not read, and one left out by each
selection. -/
theorem logged_guardedRun : ∃ a, guardedRun.result = .ok a ∧
    a.stats = ⟨4, 1, 0, 1, 1, 1, 1, 1⟩ ∧
    guardedRun.events.countP (fun e => e.level = .warn) = 1 + 1 + 1 ∧
    guardedRun.events.filter Event.isUnvisited
      = [Walk.unvisitedEvent [0x2F, 0x61, 0x2F, 0x64] ['n', 'o']] ∧
    guardedRun.events.countP (fun e => e.message = Event.skippedPath) = 1 ∧
    guardedRun.events.countP (fun e => e.message = Event.skippedClass) = 1 ∧
    linesSkipped nestedFile guardedRun.events = [2] ∧
    ∀ n, n ∈ linesSkipped nestedFile guardedRun.events ↔ ∃ i line, n = i + 1 ∧
      (cut Scope.lineFeed nestedContent)[i]? = some line ∧ Scope.isBadLine line = true := by
  have hall : (guardedRun.result.toOption.map fun a => (a.root, a.stats))
      = some ([0x2F, 0x61], ⟨4, 1, 0, 1, 1, 1, 1, 1⟩) := by decide +kernel
  obtain ⟨a, ha, hfacts⟩ := Option.map_eq_some_iff.1 hall
  simp only [Prod.mk.injEq] at hfacts
  obtain ⟨hroot, hstats⟩ := hfacts
  have hnamed : guardedTree.isNamed = true := by decide +kernel
  have hvisits : Walk.unvisitedEvents (Walk.visits guardedTree [] [0x2F, 0x61]
      (guardedTree.closedBut [] guardedRefused))
      = [Walk.unvisitedEvent [0x2F, 0x61, 0x2F, 0x64] ['n', 'o']] := by decide +kernel
  have hfile : nestedFile ∈ (Walk.ofRoot guardedTree [] [0x2F, 0x61] withoutEF.paths
      (guardedTree.closedBut [] guardedRefused)).1.files :=
    List.contains_iff_mem.1 (by decide +kernel)
  have hprocessed : (scopeOf withoutEF [0x2F, 0x61]).processed?
      (guardedTree.contentsBut [] guardedRefused) nestedFile = some nestedContent := by
    decide +kernel
  rw [← hroot] at hvisits hfile hprocessed
  have hrun := eq_ok_of_toOption ha
  have hlogged := logged_of_run rfl hrun
  have hwarnings := hlogged.warnings
  have hpath := hlogged.byPath
  have hclass := hlogged.byClass
  rw [hstats] at hwarnings hpath hclass
  exact ⟨a, hrun, hstats, hwarnings, hlogged.unvisited.trans hvisits, hpath, hclass,
    linesSkipped_guardedRun, (hlogged.lines hnamed nestedFile hfile nestedContent hprocessed).2⟩

end Analysis

end ClassGraph
