/-
ClassGraph.Proofs.Analysis.Signal — the stop signal while files are handled.

Reading a file may give the stop signal (`stopsAt`). Until then every file
that is handled has its outcome, and from then on none has, so what comes of
handling all files depends on one thing: whether the signal is given by the
time they have been handled (`signalled`). That holds for files handled one
after another (`inTurn_signal`) and for files handled in the order of a
schedule that names each of them once (`onSchedule_signal`); `handleAll_signal`
says it of both. What a file holds matters to no one who does not read it:
`inTurn_of_agreesOn`.
-/
import ClassGraph.Proofs.Analysis.Outcomes

namespace ClassGraph

/-! ## §1 What reading a file decides -/

namespace Scope

variable {scope : Scope} {contents contents' : Contents} {file : Path}

/-- What becomes of a file depends on no other content than its own, and on that only if it is
read. -/
theorem outcome_congr (h : scope.reads file = true → contents file = contents' file) :
    scope.outcome contents file = scope.outcome contents' file := by
  unfold reads at h
  unfold outcome
  cases hhandling : scope.handling file with
  | settled outcome events => rfl
  | reading next =>
    rw [hhandling] at h
    rw [h rfl]

end Scope

/-- The same contents for some files, and the stop signal during the same reads of them. -/
def Source.AgreesOn (source source' : Source) (files : List Path) : Prop :=
  ∀ file ∈ files, source.contents file = source'.contents file ∧
    source.stops file = source'.stops file

namespace Analysis

variable {scope : Scope} {source source' : Source} {stopped : Bool} {file : Path}
  {files before after : List Path}

/-- Whether the stop signal is given while a file is handled. -/
def stopsAt (scope : Scope) (source : Source) (file : Path) : Bool :=
  scope.reads file && source.stops file

/-- Whether the stop signal is given by the time that files have been handled. -/
def signalled (scope : Scope) (source : Source) (stopped : Bool) (files : List Path) : Bool :=
  stopped || files.any (stopsAt scope source)

theorem handle_stopped (scope : Scope) (source : Source) (file : Path) :
    handle scope source true file = (none, true, []) := rfl

theorem handle_running (scope : Scope) (source : Source) (file : Path) :
    handle scope source false file
      = (some (scope.outcome source.contents file).1, stopsAt scope source file,
        (scope.outcome source.contents file).2) := by
  unfold handle stopsAt Scope.reads Scope.outcome
  cases scope.handling file with
  | settled outcome events => rfl
  | reading next => rfl

theorem handle_congr (h : source.AgreesOn source' [file]) (scope : Scope) (stopped : Bool) :
    handle scope source stopped file = handle scope source' stopped file := by
  obtain ⟨hcontent, hstops⟩ := h file (List.mem_singleton_self file)
  cases stopped with
  | true => rfl
  | false =>
    rw [handle_running, handle_running, stopsAt, stopsAt, hstops,
      Scope.outcome_congr fun _ => hcontent]

/-! ## §2 One file after another -/

theorem inTurn_stopped (scope : Scope) (source : Source) (files : List Path) :
    inTurn scope source true files = (if files.isEmpty then some [] else none, true, []) := by
  cases files with
  | nil => rfl
  | cons file rest => rfl

/-- Files handled one after another all have their outcomes, unless the signal is given. -/
theorem inTurn_signal (scope : Scope) (source : Source) (stopped : Bool) (files : List Path) :
    (inTurn scope source stopped files).2.1 = signalled scope source stopped files ∧
      (signalled scope source stopped files = false →
        (inTurn scope source stopped files).1 = some (outcomesOf scope source.contents files)) := by
  induction files generalizing stopped with
  | nil => exact ⟨by simp [inTurn, signalled], fun _ => rfl⟩
  | cons file rest ih =>
    cases stopped with
    | true => exact ⟨rfl, fun h => by simp [signalled] at h⟩
    | false =>
      obtain ⟨hsignal, houtcomes⟩ := ih (stopsAt scope source file)
      have hcons : signalled scope source false (file :: rest)
          = signalled scope source (stopsAt scope source file) rest := by
        simp [signalled]
      rw [hcons]
      simp only [inTurn, handle_running]
      refine ⟨hsignal, fun hquiet => ?_⟩
      rw [houtcomes hquiet]
      rfl

/-- What files hold, and what reading them would do, does not matter behind one during whose read
the signal is given. -/
theorem inTurn_of_agreesOn (h : source.AgreesOn source' (before ++ [file]))
    (hstop : stopsAt scope source file = true) (stopped : Bool) :
    inTurn scope source stopped (before ++ file :: after)
      = inTurn scope source' stopped (before ++ file :: after) := by
  induction before generalizing stopped with
  | nil =>
    cases stopped with
    | true => rfl
    | false =>
      have hhandle := handle_congr h scope false
      rw [handle_running, hstop] at hhandle
      simp only [List.nil_append, inTurn, ← hhandle, handle_running, hstop, inTurn_stopped]
  | cons first before ih =>
    have hone : source.AgreesOn source' [first] := fun f hf =>
      h f (List.mem_append_left _ (by simp [List.mem_singleton.1 hf]))
    have hfirst := handle_congr hone scope stopped
    have hrest := ih fun f hf => h f (List.mem_cons_of_mem _ hf)
    simp only [List.cons_append, inTurn, hfirst, hrest]

/-! ## §3 On a schedule -/

/-- For every number of files, a schedule that handles each of them once. -/
def IsSchedule (schedule : Nat → List Nat) : Prop := ∀ n, (schedule n).Perm (List.range n)

theorem isSchedule_reverse : IsSchedule fun n => (List.range n).reverse :=
  fun n => List.reverse_perm (List.range n)

/-- Whether the stop signal is given while the file with a number is handled. -/
def stopsAtNumber (scope : Scope) (source : Source) (files : List Path) (i : Nat) : Bool :=
  files[i]?.any (stopsAt scope source)

theorem fill_stopped_flag (scope : Scope) (source : Source) (files : List Path) (stopped : Bool)
    (slots : List (Option FileOutcome)) (schedule : List Nat) :
    (fill scope source files stopped slots schedule).2.1
      = (stopped || schedule.any (stopsAtNumber scope source files)) := by
  induction schedule generalizing stopped slots with
  | nil => simp [fill]
  | cons i rest ih =>
    unfold fill
    cases hf : files[i]? with
    | none => simp [ih, stopsAtNumber, hf]
    | some file =>
      cases stopped with
      | true => simp [handle_stopped, ih]
      | false => simp [handle_running, ih, stopsAtNumber, hf]

/-- Without the signal, the files of a schedule fill their slots with their outcomes. -/
theorem getElem?_fill {schedule : List Nat} {slots : List (Option FileOutcome)}
    (hquiet : schedule.any (stopsAtNumber scope source files) = false)
    (hlength : slots.length = files.length) (j : Nat) :
    (fill scope source files false slots schedule).1[j]? =
      if j ∈ schedule then
        files[j]?.map fun file => some (scope.outcome source.contents file).1
      else slots[j]? := by
  induction schedule generalizing slots with
  | nil => rfl
  | cons i rest ih =>
    obtain ⟨hi, hrest⟩ : stopsAtNumber scope source files i = false ∧
        rest.any (stopsAtNumber scope source files) = false := by
      simpa using hquiet
    unfold fill
    cases hf : files[i]? with
    | none =>
      simp only [ih hrest hlength, List.mem_cons]
      by_cases hij : j = i
      · subst hij
        have hslot : slots[j]? = none := by
          rw [List.getElem?_eq_none_iff, hlength, ← List.getElem?_eq_none_iff, hf]
        simp [hf, hslot]
      · simp [hij]
    | some file =>
      have hstop : stopsAt scope source file = false := by
        simpa [stopsAtNumber, hf] using hi
      simp only [handle_running, hstop]
      rw [ih hrest (by rw [List.length_set, hlength])]
      simp only [List.mem_cons]
      by_cases hij : j = i
      · subst hij
        have hlt : j < slots.length := by
          rw [hlength]
          exact (List.getElem?_eq_some_iff.1 hf).1
        simp [hf, hlt]
      · have hne : i ≠ j := fun e => hij e.symm
        simp [hij, hne]

theorem any_stopsAtNumber {schedule : List Nat} (h : schedule.Perm (List.range files.length)) :
    schedule.any (stopsAtNumber scope source files) = files.any (stopsAt scope source) := by
  rw [h.any_eq]
  apply Bool.eq_iff_iff.2
  simp only [List.any_eq_true, List.mem_range, stopsAtNumber]
  constructor
  · rintro ⟨i, hi, hstop⟩
    rw [List.getElem?_eq_getElem hi] at hstop
    exact ⟨files[i], List.getElem_mem hi, hstop⟩
  · rintro ⟨file, hfile, hstop⟩
    obtain ⟨i, hi, rfl⟩ := List.mem_iff_getElem.1 hfile
    exact ⟨i, hi, by rw [List.getElem?_eq_getElem hi]; exact hstop⟩

theorem mapM_id_map_some (outcomes : List FileOutcome) :
    (outcomes.map some).mapM id = some outcomes := by
  induction outcomes with
  | nil => rfl
  | cons outcome rest ih => simp [List.mapM_cons, ih]

/-- Files handled on a schedule all have their outcomes, unless the signal is given. -/
theorem onSchedule_signal {schedule : List Nat} (h : schedule.Perm (List.range files.length))
    (scope : Scope) (source : Source) (stopped : Bool) :
    (onSchedule scope source schedule stopped files).2.1 = signalled scope source stopped files ∧
      (signalled scope source stopped files = false →
        (onSchedule scope source schedule stopped files).1
          = some (outcomesOf scope source.contents files)) := by
  constructor
  · rw [signalled, ← any_stopsAtNumber h]
    exact fill_stopped_flag scope source files stopped _ schedule
  · intro hquiet
    rw [signalled, Bool.or_eq_false_iff, ← any_stopsAtNumber h] at hquiet
    obtain ⟨rfl, hnone⟩ := hquiet
    have hslots : (fill scope source files false (files.map fun _ => none) schedule).1
        = (outcomesOf scope source.contents files).map some := by
      apply List.ext_getElem?
      intro j
      rw [getElem?_fill hnone (List.length_map _)]
      by_cases hj : j < files.length
      · have hmem : j ∈ schedule := h.mem_iff.2 (List.mem_range.2 hj)
        simp only [hmem, if_true, outcomesOf, List.getElem?_map, Option.map_map, Function.comp_def]
      · have hlength : files.length ≤ j := Nat.le_of_not_lt hj
        simp [outcomesOf, hlength]
    show (fill scope source files false (files.map fun _ => none) schedule).1.mapM id = _
    rw [hslots, mapM_id_map_some]

/-- Once the signal is given, it does not matter what the files on a schedule hold. -/
theorem onSchedule_of_stopped (scope : Scope) (source source' : Source) (schedule : List Nat)
    (files : List Path) :
    onSchedule scope source schedule true files = onSchedule scope source' schedule true files := by
  have hfill : ∀ slots, fill scope source files true slots schedule
      = fill scope source' files true slots schedule := by
    induction schedule with
    | nil => exact fun _ => rfl
    | cons i rest ih =>
      intro slots
      unfold fill
      cases files[i]? with
      | none => exact ih slots
      | some file => simp only [handle_stopped, ih]
  rw [onSchedule, onSchedule, hfill]

/-! ## §4 All files of a walk -/

variable {options : Options} {schedule : Nat → List Nat}

/-- The files of a walk all have their outcomes, unless the signal is given by the time they have
been handled. -/
theorem handleAll_signal (hschedule : options.parallel = true → IsSchedule schedule)
    (source : Source) (stopped : Bool) (root : Path) (files : List Path) :
    (handleAll options source schedule stopped root files).2.1
        = signalled (scopeOf options root) source stopped files ∧
      (signalled (scopeOf options root) source stopped files = false →
        (handleAll options source schedule stopped root files).1
          = some (outcomesOf (scopeOf options root) source.contents files)) := by
  unfold handleAll
  split
  · next hparallel => exact onSchedule_signal (hschedule hparallel files.length) _ source stopped
  · exact inTurn_signal _ source stopped files

theorem handleAll_of_stopped (options : Options) (source source' : Source)
    (schedule : Nat → List Nat) (root : Path) (files : List Path) :
    handleAll options source schedule true root files
      = handleAll options source' schedule true root files := by
  unfold handleAll
  split
  · exact onSchedule_of_stopped _ source source' _ files
  · rw [inTurn_stopped, inTurn_stopped]

end Analysis

end ClassGraph
