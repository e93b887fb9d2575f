/-
ClassGraph.Proofs.Analysis.Order — files in parallel and one after another.

A schedule decides when a file is handled and nothing else. What comes of a
file is its own matter, its outcome has the slot of the file whenever it is
handled, and joining outcomes does not depend on their order. So a run in
parallel ends as the run that handles one file after another does, on every
schedule (`result_of_schedule`), and outcomes joined in any order give the
same graph and the same numbers: `parallel_eq_sequential`.
-/
import ClassGraph.Proofs.Analysis.Ending

namespace ClassGraph.Analysis

variable {options : Options} {schedule schedule' : Nat → List Nat} {source : Source} {s : Storage}
  {here : Place} {stopped : Bool} {root : Path} {closed : Closed}

/-- Handling files in parallel is not seen in the result of a run. -/
theorem result_of_schedule (hschedule : IsSchedule schedule) (s : Storage) (here : Place)
    (options : Options) (source : Source) (schedule' : Nat → List Nat) (stopped : Bool)
    (root : Path) (closed : Closed) :
    (run s here { options with parallel := true } source schedule stopped root closed).result
      = (run s here { options with parallel := false } source schedule' stopped root
        closed).result := by
  rw [run_result (fun _ => hschedule), run_result fun h => by cases h]
  rfl

/-- A run yields something exactly where there is a root, no unsupported feature is present and the
signal is not given. -/
theorem exists_ok_iff (hschedule : options.parallel = true → IsSchedule schedule) (s : Storage)
    (here : Place) (source : Source) (stopped : Bool) (root : Path) (closed : Closed) :
    (∃ a, (run s here options source schedule stopped root closed).result = .ok a) ↔
      ∃ top, s.canonical here root = .ok top ∧
        (∀ f ∈ options.unsupported, f.isPresent s top = false) ∧
        signalled (scopeOf options top) source stopped
          (Walk.ofRoot s here top options.paths closed).1.files = false := by
  rw [run_result hschedule]
  constructor
  · rintro ⟨a, h⟩
    split at h
    · cases h
    · next top hcanon =>
      split at h
      · cases h
      · next hfirst =>
        dsimp only at h
        split at h
        · cases h
        · next hs => exact ⟨top, hcanon, firstUnsupported_eq_none.1 hfirst, by simpa using hs⟩
  · rintro ⟨top, hcanon, hnone, hs⟩
    simp only [hcanon, firstUnsupported_eq_none.2 hnone, hs, Bool.false_eq_true, if_false,
      Except.ok.injEq, exists_eq']

theorem signalled_quiet (scope : Scope) (contents : Contents) (files : List Path) :
    signalled scope ⟨contents, fun _ => false⟩ false files = false := by
  simp [signalled, stopsAt]

/-- **Parallel is sequential**: on every schedule a run in parallel has the result of the run that
handles one file after another, its graph and its numbers included, and it has one wherever there
is a root without unsupported features. Both are also what the outcomes give in any other order. -/
theorem parallel_eq_sequential (hschedule : IsSchedule schedule) (s : Storage) (here : Place)
    (options : Options) (contents : Contents) (root : Path) (closed : Closed) :
    let source : Source := ⟨contents, fun _ => false⟩
    let parallel := run s here { options with parallel := true } source schedule false root
      closed
    let sequential := run s here { options with parallel := false } source schedule false root
      closed
    parallel.result = sequential.result ∧
      ((∃ a, sequential.result = .ok a) ↔ ∃ top, s.canonical here root = .ok top ∧
        ∀ f ∈ options.unsupported, f.isPresent s top = false) ∧
      ∀ a, sequential.result = .ok a →
        let w := (Walk.ofRoot s here a.root options.paths closed).1
        ∀ outcomes : List FileOutcome,
          outcomes.Perm (outcomesOf (scopeOf options a.root) contents w.files) →
          absorbAll (startStats w) outcomes = (a.raw, a.stats) := by
  intro source parallel sequential
  refine ⟨result_of_schedule hschedule s here options source schedule false root closed, ?_, ?_⟩
  · rw [exists_ok_iff (fun h => by cases h)]
    simp only [source, signalled_quiet, and_true]
  · intro a ha w outcomes hperm
    obtain ⟨-, -, habsorb⟩ := run_eq_ok ha
    rw [absorbAll_perm hperm (startStats w)]
    exact habsorb.symm

/-- Two files of one class, the later one handled first. -/
theorem parallel_eq_sequential_nestedTree :
    IsSchedule (fun n => (List.range n).reverse) ∧
      (run nestedTree [] { everything with parallel := true } (nestedTree.source [])
        (fun n => (List.range n).reverse) false [0x61]).result = nestedRun.result ∧
      ∃ a, nestedRun.result = .ok a ∧
        absorbAll (startStats (Walk.ofRoot nestedTree [] a.root none).1)
          (outcomesOf (scopeOf everything a.root) (nestedTree.contents [])
            (Walk.ofRoot nestedTree [] a.root none).1.files).reverse = (a.raw, a.stats) := by
  obtain ⟨a, ha, -⟩ := nestedRun_eq_ok
  obtain ⟨hresult, -, hfold⟩ := parallel_eq_sequential isSchedule_reverse nestedTree [] everything
    (nestedTree.contents []) [0x61] .nowhere
  have hsequential : (run nestedTree [] { everything with parallel := false }
      ⟨nestedTree.contents [], fun _ => false⟩ (fun n => (List.range n).reverse) false
      [0x61]).result = nestedRun.result := rfl
  refine ⟨isSchedule_reverse, hresult.trans hsequential, a, ha, ?_⟩
  exact hfold a (hsequential.trans ha) _ (List.reverse_perm _)

end ClassGraph.Analysis
