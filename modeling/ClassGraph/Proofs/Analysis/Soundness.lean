/-
ClassGraph.Proofs.Analysis.Soundness — what holds of the graph of every run.

The weights of a run are totals of shares, so a property of the edges is one
of the files that add to them: such a file belongs to the source, which has a
name and is accepted, and mentions the target, which is another class with a
name. A file of a nested class mentions the class around it as well, so where
a nested class has any edge it has that one. The main statement is
`sound_raw`.
-/
import ClassGraph.Proofs.Analysis.Origins
import ClassGraph.Proofs.Analysis.Weights

namespace ClassGraph

/-- What holds of the graph of a run in which a selection of classes takes part. -/
structure Graph.Sound (classes : Option Selection) (g : Graph) : Prop where
  loopless : ∀ s, g.weight? s s = none
  bounded : ∀ s t w, g.weight? s t = some w → 1 ≤ w.toNat ∧ w.toNat ≤ UInt32.size - 1
  compact : ∀ s, g.contains s = true → ∃ t w, g.weight? s t = some w
  sourceNamed : ∀ s, g.contains s = true → s.isAnonymous = false
  targetNamed : ∀ s t w, g.weight? s t = some w → t.isAnonymous = false
  accepted : ∀ s, g.contains s = true → Selection.passes classes s = true
  enclosed : ∀ s, g.contains s = true → s.isInner = true → ∃ w, g.weight? s s.outer = some w

namespace Analysis

variable {st : Storage} {here : Place} {options : Options} {source : Source}
  {schedule : Nat → List Nat} {stopped : Bool} {root : Path}
  {closed : Closed} {a : Analysis} {s t : Name}

section Run

variable (hrun : (run st here options source schedule stopped root closed).result = .ok a)
  (hshort : Short source.contents (Walk.ofRoot st here a.root options.paths closed).1.files)

include hrun hshort

/-! ## §1 Edges and the files that add to them -/

/-- There is an edge where some file of the walk adds to it, and only there. -/
theorem exists_weight?_iff :
    (∃ w, a.raw.weight? s t = some w) ↔
      ∃ file ∈ (Walk.ofRoot st here a.root options.paths closed).1.files,
        (scopeOf options a.root).share source.contents s t file ≠ 0 := by
  rw [weight?_raw hrun hshort, ← Option.isSome_iff_exists, Option.isSome_iff_ne_none, Ne,
    Weight.ofTotal_eq_none, List.sum_eq_zero_iff_forall_eq_nat]
  simp only [List.mem_map, forall_exists_index, and_imp, forall_apply_eq_imp_iff₂]
  exact Classical.not_forall.trans (exists_congr fun file => Classical.not_imp)

/-- An edge comes from a file of its source that mentions its target. -/
theorem mem_mentions_of_weight? {w : Weight} (h : a.raw.weight? s t = some w) :
    ∃ literal content, literal.nearestNamed = s ∧ Selection.passes options.classes s = true ∧
      t ∈ (scopeOf options a.root).mentions literal content := by
  obtain ⟨file, -, hshare⟩ := (exists_weight?_iff hrun hshort).1 ⟨w, h⟩
  obtain ⟨literal, content, -, -, hs, hclass, hmem⟩ := Scope.mem_mentions_of_share hshare
  exact ⟨literal, content, hs, hclass, hmem⟩

/-! ## §2 The graph of a run -/

theorem loopless_raw (s : Name) : a.raw.weight? s s = none := by
  cases h : a.raw.weight? s s with
  | none => rfl
  | some w =>
    obtain ⟨literal, content, hs, -, hmem⟩ := mem_mentions_of_weight? hrun hshort h
    have hself := (scopeOf options a.root).count_mentions_self literal content
    rw [hs] at hself
    exact absurd hmem (List.count_eq_zero.1 hself)

/-- A bound class has a name and is accepted; a nested one has an edge to the class around it. -/
theorem vertex_raw (hs : a.raw.contains s = true) :
    s.isAnonymous = false ∧ Selection.passes options.classes s = true ∧
      (s.isInner = true → ∃ w, a.raw.weight? s s.outer = some w) := by
  obtain ⟨t, w, hw⟩ := Graph.exists_weight?_of_contains (compact_raw hrun) hs
  obtain ⟨file, hfile, hshare⟩ := (exists_weight?_iff hrun hshort).1 ⟨w, hw⟩
  obtain ⟨literal, content, hname, hread, rfl, hclass, -⟩ := Scope.mem_mentions_of_share hshare
  refine ⟨literal.isAnonymous_nearestNamed, hclass, fun hinner => ?_⟩
  exact (exists_weight?_iff hrun hshort).2
    ⟨file, hfile, Scope.share_outer_ne_zero hname hread hclass hinner⟩

theorem sound_of_run : a.raw.Sound options.classes where
  loopless := loopless_raw hrun hshort
  bounded := by
    intro s t w h
    rw [weight?_raw hrun hshort] at h
    exact Weight.bounds_of_ofTotal h
  compact := fun s hs => Graph.exists_weight?_of_contains (compact_raw hrun) hs
  sourceNamed := fun s hs => (vertex_raw hrun hshort hs).1
  targetNamed := by
    intro s t w h
    obtain ⟨literal, content, -, -, hmem⟩ := mem_mentions_of_weight? hrun hshort h
    exact Scope.isAnonymous_of_mem_mentions hmem
  accepted := fun s hs => (vertex_raw hrun hshort hs).2.1
  enclosed := fun s hs => (vertex_raw hrun hshort hs).2.2

/-- A file of a nested class that is counted leaves an edge to the class around it, whatever else
it refers to. -/
theorem exists_weight?_outer {file : Path}
    (hfile : file ∈ (Walk.ofRoot st here a.root options.paths closed).1.files) {t : Tally}
    (ht : ((scopeOf options a.root).outcome source.contents file).1 = .counted t)
    (hinner : t.name.isInner = true) : ∃ w, a.raw.weight? t.name t.name.outer = some w := by
  obtain ⟨literal, content, hname, hread, hclass, hlit⟩ := Scope.outcome_eq_counted ht
  rw [hlit] at hinner ⊢
  exact (exists_weight?_iff hrun hshort).2
    ⟨file, hfile, Scope.share_outer_ne_zero hname hread hclass hinner⟩

end Run

/-- **The graph of every run is sound**, and every file of a nested class that is counted leaves an
edge to the class around it, even when it refers to nothing. -/
theorem sound_raw (hrun : (run st here options source schedule stopped root closed).result = .ok a)
    (hshort : Short source.contents (Walk.ofRoot st here a.root options.paths closed).1.files) :
    a.raw.Sound options.classes ∧
      ∀ file ∈ (Walk.ofRoot st here a.root options.paths closed).1.files, ∀ t : Tally,
        ((scopeOf options a.root).outcome source.contents file).1 = .counted t →
          t.name.isInner = true → ∃ w, a.raw.weight? t.name t.name.outer = some w := by
  refine ⟨sound_of_run hrun hshort, ?_⟩
  intro file hfile t ht hinner
  exact exists_weight?_outer hrun hshort hfile ht hinner

theorem sound_nestedTree : ∃ a, nestedRun.result = .ok a ∧ a.raw.Sound none ∧
    ∃ w, a.raw.weight? ['B', '$', 'C'] ['B'] = some w := by
  obtain ⟨a, ha, hroot⟩ := nestedRun_eq_ok
  have hfile : nestedFile ∈ (Walk.ofRoot nestedTree [] [0x2F, 0x61] none).1.files :=
    List.contains_iff_mem.1 (by decide +kernel)
  have hshort : isShort (nestedTree.contents [])
      (Walk.ofRoot nestedTree [] [0x2F, 0x61] none).1.files = true := by decide +kernel
  have hcounted : ((scopeOf everything [0x2F, 0x61]).outcome (nestedTree.contents []) nestedFile).1
      = .counted ((scopeOf everything [0x2F, 0x61]).tally nestedFile ['B', '$', 'C']
        nestedContent).1 := by decide +kernel
  have hname : Name.nearestNamed ['B', '$', 'C'] = ['B', '$', 'C'] := by decide +kernel
  have houter : Name.outer ['B', '$', 'C'] = ['B'] := by decide +kernel
  rw [← hroot] at hfile hshort hcounted
  obtain ⟨hsound, hedge⟩ := sound_raw ha (short_of_isShort hshort)
  have hnested := hedge nestedFile hfile _ hcounted
  rw [Scope.tally_name, hname, houter] at hnested
  exact ⟨a, ha, hsound, hnested (by decide +kernel)⟩

end Analysis

end ClassGraph
