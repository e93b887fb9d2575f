/-
ClassGraph.Proofs.Analysis.Exclusion — what stays out of the graph of a run.

A class that the selection leaves out is never bound, and a reference to it
does not count; a reference to a generated class does not count either. One
edge is asked nothing: that of a nested class to the class around it. So an
excluded or a generated class may occur as the target of such an edge, and
only so (`excluded_raw`, `generated_raw`). Nor is it asked whether the class
of a file is generated, so a generated class is bound where a file of its own
counts for it.
-/
import ClassGraph.Proofs.Analysis.Origins
import ClassGraph.Proofs.Analysis.Weights
import ClassGraph.Settings.Basic

namespace ClassGraph

/-! ## §1 Generated classes and the classes around them -/

namespace Markers

variable {m : Markers} {n : Name}

theorem isGenerated_iff :
    m.isGenerated n = true ↔ ∃ fragment ∈ m.fragments, fragment <:+: n.simple := by
  simp only [isGenerated, List.any_eq_true, hasPart_iff]

/-- The simple name of the outermost class begins that of the nested one, so a marker of the one
marks the other. -/
theorem isGenerated_of_outer (h : m.isGenerated n.outer = true) : m.isGenerated n = true := by
  obtain ⟨fragment, hf, hpart⟩ := isGenerated_iff.1 h
  rw [Name.simple_outer] at hpart
  exact isGenerated_iff.2 ⟨fragment, hf, hpart.trans (List.takeWhile_prefix _).isInfix⟩

/-- Markers that hold a nesting separator mark no outermost class. -/
theorem isGenerated_outer (h : ∀ fragment ∈ m.fragments, '$' ∈ fragment) (n : Name) :
    m.isGenerated n.outer = false := by
  cases hg : m.isGenerated n.outer with
  | false => rfl
  | true =>
    obtain ⟨fragment, hf, hpart⟩ := isGenerated_iff.1 hg
    rw [Name.simple_outer] at hpart
    have hkept := of_mem_takeWhile (hpart.subset (h fragment hf))
    exact absurd hkept (by decide)

end Markers

namespace Analysis

variable {st : Storage} {here : Place} {options : Options} {source : Source}
  {schedule : Nat → List Nat} {stopped : Bool} {root : Path}
  {closed : Closed} {a : Analysis} {s t : Name} {w : Weight}

/-! ## §2 Runs -/

/-- An edge goes to the class around a nested one, or some reference to its target counts. -/
theorem edge_cases (hrun : (run st here options source schedule stopped root closed).result = .ok a)
    (h : a.raw.weight? s t = some w) :
    (s.isInner = true ∧ t = s.outer) ∨ ∃ body, (scopeOf options a.root).refersTo s t body = true := by
  obtain ⟨file, -, literal, content, hfor, hmem⟩ := edge_origin hrun h
  have hcases := Scope.mem_mentions_cases hmem
  rw [hfor.folded] at hcases
  rcases hcases with houter | ⟨line, -, text, -, body, -, hrefers⟩
  · exact .inl houter
  · exact .inr ⟨body, hrefers⟩

/-- **No excluded class is bound**, and one is the target of an edge only where it is the class
around a nested class that takes part. -/
theorem excluded_raw
    (hrun : (run st here options source schedule stopped root closed).result = .ok a) :
    (∀ s, a.raw.contains s = true → Selection.passes options.classes s = true) ∧
      ∀ s t w, a.raw.weight? s t = some w → Selection.passes options.classes t = false →
        s.isInner = true ∧ t = s.outer := by
  constructor
  · intro s hs
    obtain ⟨file, -, literal, content, hfor⟩ := vertex_origin hrun hs
    exact hfor.accepted
  · intro s t w h hout
    rcases edge_cases hrun h with houter | ⟨body, hrefers⟩
    · exact houter
    · have hin : Selection.passes options.classes t = true := Scope.passes_of_refersTo hrefers
      rw [hout] at hin
      cases hin

/-- The settings that leave the class `B` out. -/
def withoutB : Settings := { Settings.usual with ignored := [['B']] }

theorem withoutB_nestedTree : ∃ options a w, withoutB.options false = .ok options ∧
    (runOver nestedTree options).result = .ok a ∧
    Selection.passes options.classes ['B'] = false ∧
    a.raw.weight? ['B', '$', 'C'] ['B'] = some w := by
  have hall : ((withoutB.options false).toOption.bind fun options =>
      (runOver nestedTree options).result.toOption.map fun a =>
        (Selection.passes options.classes ['B'],
          (a.raw.weight? ['B', '$', 'C'] ['B']).map UInt32.toNat)) = some (false, some 2) := by
    decide +kernel
  obtain ⟨options, hoptions, hrun⟩ := Option.bind_eq_some_iff.1 hall
  obtain ⟨a, ha, hfacts⟩ := Option.map_eq_some_iff.1 hrun
  obtain ⟨hout, hweight⟩ := Prod.mk.inj hfacts
  obtain ⟨w, hw, -⟩ := Option.map_eq_some_iff.1 hweight
  exact ⟨options, a, w, eq_ok_of_toOption hoptions, eq_ok_of_toOption ha, hout, hw⟩

/-- A nested class that takes part brings the excluded class around it into the graph. -/
theorem excluded_target_occurs : ¬ ∀ options a, withoutB.options false = .ok options →
    (runOver nestedTree options).result = .ok a →
    ∀ s t w, a.raw.weight? s t = some w → Selection.passes options.classes t = true := by
  intro hclaim
  obtain ⟨options, a, w, hoptions, ha, hout, hw⟩ := withoutB_nestedTree
  have hin := hclaim options a hoptions ha _ _ w hw
  rw [hout] at hin
  cases hin

theorem excluded_raw_nestedTree : ∃ options a, withoutB.options false = .ok options ∧
    (runOver nestedTree options).result = .ok a ∧
    Selection.passes options.classes ['B'] = false ∧
    Name.isInner ['B', '$', 'C'] = true ∧ ['B'] = Name.outer ['B', '$', 'C'] := by
  obtain ⟨options, a, w, hoptions, ha, hout, hw⟩ := withoutB_nestedTree
  exact ⟨options, a, hoptions, ha, hout, (excluded_raw ha).2 _ _ w hw hout⟩

/-- **Generated classes come from files of their own**: what is bound is what a file of the walk
counts for, and a generated class is the target of an edge only where it is the class around one
that is generated itself. With markers that hold the nesting separator there is no such edge. -/
theorem generated_raw
    (hrun : (run st here options source schedule stopped root closed).result = .ok a) :
    (∀ s, a.raw.contains s = true →
      ∃ file ∈ (Walk.ofRoot st here a.root options.paths closed).1.files,
      ∃ literal, Name.ofPath? a.root file = .ok literal ∧ literal.nearestNamed = s) ∧
    (∀ s t w, a.raw.weight? s t = some w → options.generated.isGenerated t = true →
      s.isInner = true ∧ t = s.outer ∧ options.generated.isGenerated s = true) ∧
    ((∀ fragment ∈ options.generated.fragments, '$' ∈ fragment) →
      ∀ s t w, a.raw.weight? s t = some w → options.generated.isGenerated t = false) := by
  have htarget : ∀ s t w, a.raw.weight? s t = some w → options.generated.isGenerated t = true →
      s.isInner = true ∧ t = s.outer := by
    intro s t w h hgen
    rcases edge_cases hrun h with houter | ⟨body, hrefers⟩
    · exact houter
    · have hnot : options.generated.isGenerated t = false := Scope.isGenerated_of_refersTo hrefers
      rw [hgen] at hnot
      cases hnot
  refine ⟨?_, ?_, ?_⟩
  · intro s hs
    obtain ⟨file, hfile, literal, content, hfor⟩ := vertex_origin hrun hs
    exact ⟨file, hfile, literal, hfor.named, hfor.folded⟩
  · intro s t w h hgen
    obtain ⟨hinner, rfl⟩ := htarget s t w h hgen
    exact ⟨hinner, rfl, Markers.isGenerated_of_outer hgen⟩
  · intro hmarkers s t w h
    cases hgen : options.generated.isGenerated t with
    | false => rfl
    | true =>
      obtain ⟨-, rfl⟩ := htarget s t w h hgen
      rw [Markers.isGenerated_outer hmarkers] at hgen
      cases hgen

/-- A generated class with a file of its own is bound, whatever marks it. -/
theorem generated_vertex_occurs : ∃ a, (runOver (treeOf ['B', '$', '$', 'C']) everything).result
      = .ok a ∧ a.raw.contains ['B', '$', '$', 'C'] = true ∧
    Markers.usual.isGenerated ['B', '$', '$', 'C'] = true := by
  have hbound : ((runOver (treeOf ['B', '$', '$', 'C']) everything).result.toOption.map fun a =>
      a.raw.contains ['B', '$', '$', 'C']) = some true := by
    decide +kernel
  obtain ⟨a, ha, hcontains⟩ := Option.map_eq_some_iff.1 hbound
  exact ⟨a, eq_ok_of_toOption ha, hcontains, by decide +kernel⟩

theorem generated_raw_nestedTree : ∃ a,
    (runOver nestedTree { everything with generated := .ofList [['B']] }).result = .ok a ∧
    Name.isInner ['B', '$', 'C'] = true ∧ ['B'] = Name.outer ['B', '$', 'C'] ∧
    (Markers.ofList [['B']]).isGenerated ['B', '$', 'C'] = true := by
  have hedge : ((runOver nestedTree { everything with generated := .ofList [['B']] }
      ).result.toOption.map fun a => (a.raw.weight? ['B', '$', 'C'] ['B']).map UInt32.toNat)
      = some (some 2) := by
    decide +kernel
  obtain ⟨a, ha, hweight⟩ := Option.map_eq_some_iff.1 hedge
  obtain ⟨w, hw, -⟩ := Option.map_eq_some_iff.1 hweight
  have hrun := eq_ok_of_toOption ha
  exact ⟨a, hrun, (generated_raw hrun).2.1 _ _ w hw (by decide +kernel)⟩

end Analysis

end ClassGraph
