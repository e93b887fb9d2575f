/-
ClassGraph.Proofs.Analysis.Weights — the weights of a whole run.

The weight of an edge is the sum of the shares of the files of the walk, or
the greatest weight where the sum exceeds it, and there is no edge where the
sum is zero: `weight?_raw` for any root, `weight?_raw_of_directory` with the
files of the walk spelled out.
-/
import ClassGraph.Proofs.Analysis.Outcomes
import ClassGraph.Proofs.Steps
import ClassGraph.Proofs.Walk.Files

namespace ClassGraph.Analysis

variable {st : Storage} {here place : Place} {options : Options} {source : Source}
  {schedule : Nat → List Nat} {stopped : Bool} {root : Path} {closed : Closed} {a : Analysis}

/-- Every file that is read is shorter than 2^32 bytes. -/
def Short (contents : Contents) (files : List Path) : Prop :=
  ∀ file ∈ files, ∀ content, contents file = .ok content → content.length < UInt32.size

/-- The totals of the outcomes of files are the sums of their shares. -/
theorem total_countsOf {scope : Scope} {contents : Contents} {files : List Path}
    (h : Short contents files) (s t : Name) :
    Graph.total (countsOf (outcomesOf scope contents files)) s t
      = (files.map (scope.share contents s t)).sum := by
  induction files with
  | nil => rfl
  | cons file rest ih =>
    have hrest := ih fun f hf => h f (List.mem_cons_of_mem _ hf)
    have hfirst := scope.added_outcome (h file (List.mem_cons_self ..)) s t
    rw [List.map_cons, List.sum_cons, ← hrest, ← hfirst]
    simp only [outcomesOf, countsOf, List.map_cons, List.filterMap_cons]
    cases (scope.outcome contents file).1.counts? with
    | none => simp
    | some p => simp [Graph.total]

theorem weight?_raw
    (hrun : (run st here options source schedule stopped root closed).result = .ok a)
    (hshort : Short source.contents (Walk.ofRoot st here a.root options.paths closed).1.files)
    (s t : Name) :
    a.raw.weight? s t = Weight.ofTotal
      (((Walk.ofRoot st here a.root options.paths closed).1.files.map
        ((scopeOf options a.root).share source.contents s t)).sum) := by
  rw [raw_of_run hrun, Graph.weight?_mergeAll, total_countsOf hshort]

/-- **The weights of a run**: below a directory, the weight of an edge is the sum of what the class
files that take part add to it, up to the greatest weight; where that sum is zero, there is no
edge. -/
theorem weight?_raw_of_directory
    (hrun : (run st here options source schedule stopped root closed).result = .ok a)
    (hdir : st.lookUp here false a.root = .ok (.existing place .directory))
    (hshort : Short source.contents (Walk.classFiles st options.paths a.root place closed))
    (s t : Name) :
    (a.raw.weight? s t).map UInt32.toNat =
      let n := ((Walk.classFiles st options.paths a.root place closed).map
        ((scopeOf options a.root).share source.contents s t)).sum
      if n = 0 then none else some (min n (UInt32.size - 1)) := by
  have hfiles := Walk.files_ofRoot hdir options.paths closed
  rw [← hfiles] at hshort ⊢
  rw [weight?_raw hrun hshort, Weight.map_toNat_ofTotal]

/-! ## §2 Runs over few files -/

/-- A condition on contents that is checked file by file holds of whatever is read. -/
theorem forall_contents_of_all {contents : Contents} {files : List Path} {p : Bytes → Bool}
    (h : (files.all fun file => (contents file).toOption.all p) = true) :
    ∀ file ∈ files, ∀ content, contents file = .ok content → p content = true := by
  intro file hf content hc
  have hall := List.all_eq_true.1 h file hf
  rw [hc] at hall
  exact hall

/-- Whether every file that is read is shorter than 2^32 bytes. -/
def isShort (contents : Contents) (files : List Path) : Bool :=
  files.all fun file => (contents file).toOption.all fun content => content.length < UInt32.size

theorem short_of_isShort {contents : Contents} {files : List Path}
    (h : isShort contents files = true) : Short contents files := fun file hf content hc =>
  of_decide_eq_true (forall_contents_of_all h file hf content hc)

/-- The file of `B$C`: two of its three lines mention `D`, the other is not text. -/
def nestedContent : Bytes := [0x4C, 0x44, 0x3B, 0x0A, 0xFF, 0x0A, 0x4C, 0x44, 0x3B]

/-- The path of the file of `B$C`. -/
def nestedFile : Path := [0x2F, 0x61, 0x2F, 0x42, 0x24, 0x43, 0x2E, 0x73, 0x6D, 0x61, 0x6C, 0x69]

/-- A directory with `B$C` and the class without a name inside it, which mentions `D` once. -/
def nestedTree : Storage :=
  ((Storage.empty.put [] [0x61] .directory).put [[0x61]]
    [0x42, 0x24, 0x43, 0x2E, 0x73, 0x6D, 0x61, 0x6C, 0x69] (.file nestedContent false)).put [[0x61]]
    [0x42, 0x24, 0x43, 0x24, 0x31, 0x2E, 0x73, 0x6D, 0x61, 0x6C, 0x69]
    (.file [0x4C, 0x44, 0x3B] false)

/-- The options that leave nothing out but generated classes. -/
def everything : Options := ⟨true, none, none, Markers.usual, [], false⟩

def nestedRun : Run :=
  run nestedTree [] everything (nestedTree.source []) (fun _ => []) false [0x61]

/-- A directory with one class file, which mentions `D` once. -/
def treeOf (stem : Text) : Storage :=
  (Storage.empty.put [] [0x61] .directory).put [[0x61]] (Path.ofText (stem ++ Name.sourceEnding))
    (.file [0x4C, 0x44, 0x3B] false)

/-- The run over the directory of a small tree, file after file. -/
def runOver (st : Storage) (options : Options) : Run :=
  run st [] options (st.source []) (fun _ => []) false [0x61]

theorem nestedRun_eq_ok : ∃ a, nestedRun.result = .ok a ∧ a.root = [0x2F, 0x61] := by
  have hroot : nestedRun.result.toOption.map Analysis.root = some [0x2F, 0x61] := by decide +kernel
  obtain ⟨a, ha, hpath⟩ := Option.map_eq_some_iff.1 hroot
  exact ⟨a, eq_ok_of_toOption ha, hpath⟩

theorem weight?_raw_nestedTree : ∃ a, nestedRun.result = .ok a ∧
    (a.raw.weight? ['B', '$', 'C'] ['D']).map UInt32.toNat = some 3 := by
  obtain ⟨a, ha, hroot⟩ := nestedRun_eq_ok
  have hdir : nestedTree.lookUp [] false [0x2F, 0x61] = .ok (.existing [[0x61]] .directory) := by
    decide +kernel
  have hshort : isShort (nestedTree.contents [])
      (Walk.classFiles nestedTree none [0x2F, 0x61] [[0x61]]) = true := by decide +kernel
  rw [← hroot] at hdir hshort
  refine ⟨a, ha, ?_⟩
  rw [weight?_raw_of_directory ha hdir (short_of_isShort hshort), hroot]
  decide +kernel

end ClassGraph.Analysis
