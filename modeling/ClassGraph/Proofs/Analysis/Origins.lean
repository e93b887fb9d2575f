/-
ClassGraph.Proofs.Analysis.Origins — where the names of a graph come from.

Only a merge adds an edge, and it adds one to a class that it has a count for
(`weight?_merge_origin`), so by induction every edge of a run goes back to a
file that was counted: the file counts for the source and mentions the target
(`edge_origin`). Nothing here depends on how long files are, since it is about
whether there is a count, not how great it is.
-/
import ClassGraph.Proofs.Analysis.Outcomes

namespace ClassGraph

/-! ## §1 Merges -/

namespace Graph

variable {g : Graph} {s t source : Name} {w : Weight} {counts : Counts}

/-- An edge after a merge was there before it, or the merge has a count for its target. -/
theorem weight?_merge_origin (h : (g.merge source counts).weight? s t = some w) :
    (∃ w', g.weight? s t = some w') ∨ (source = s ∧ ∃ c, counts.find? t = some c) := by
  by_cases hs : s = source
  · subst hs
    rw [weight?_merge_self, find?_edgesOf] at h
    cases hc : counts.find? t with
    | none =>
      rw [hc] at h
      exact .inl ⟨w, h⟩
    | some c => exact .inr ⟨rfl, c, rfl⟩
  · rw [weight?_merge_of_ne g hs] at h
    exact .inl ⟨w, h⟩

/-- An edge after many merges was there before them, or one of them has a count for its target. -/
theorem weight?_mergeAll_origin {files : List (Name × Counts)}
    (h : (g.mergeAll files).weight? s t = some w) :
    (∃ w', g.weight? s t = some w') ∨ ∃ counts c, (s, counts) ∈ files ∧ counts.find? t = some c := by
  induction files generalizing g with
  | nil => exact .inl ⟨w, h⟩
  | cons file files ih =>
    rcases ih h with ⟨w', hw'⟩ | ⟨counts, c, hmem, hc⟩
    · rcases weight?_merge_origin hw' with hbefore | ⟨hsource, c, hc⟩
      · exact .inl hbefore
      · subst hsource
        exact .inr ⟨file.2, c, List.mem_cons_self .., hc⟩
    · exact .inr ⟨counts, c, List.mem_cons_of_mem _ hmem, hc⟩

end Graph

/-! ## §2 Files -/

namespace Scope

variable {scope : Scope} {contents : Contents} {file : Path} {literal s t : Name} {content : Bytes}
  {counts : Counts} {c : Weight}

/-- A file that counts for the class `s`, with what its path spells and what it holds. -/
structure CountsFor (scope : Scope) (contents : Contents) (s : Name) (file : Path) (literal : Name)
    (content : Bytes) : Prop where
  named : Name.ofPath? scope.root file = .ok literal
  read : contents file = .ok content
  folded : literal.nearestNamed = s
  accepted : Selection.passes scope.classes s = true

/-- A file with a count for a class mentions it. -/
theorem mem_mentions_of_counts (h : (scope.outcome contents file).1.counts? = some (s, counts))
    (hc : counts.find? t = some c) :
    ∃ literal content, scope.CountsFor contents s file literal content ∧
      t ∈ scope.mentions literal content := by
  rw [counts?_outcome] at h
  split at h
  · next literal content hname hread =>
    split at h
    · next hclass =>
      obtain ⟨rfl, rfl⟩ := Prod.mk.inj (Option.some.inj h)
      refine ⟨literal, content, ⟨hname, hread, rfl, hclass⟩, ?_⟩
      rw [find?_tally] at hc
      split at hc
      · cases hc
      · next hcount => exact List.count_pos_iff.1 (Nat.pos_of_ne_zero hcount)
    · cases h
  · cases h

end Scope

/-! ## §3 Runs -/

namespace Analysis

variable {st : Storage} {here : Place} {options : Options} {source : Source}
  {schedule : Nat → List Nat} {stopped : Bool} {root : Path}
  {closed : Closed} {a : Analysis} {s t : Name} {w : Weight}

/-- An edge of a run comes from a file that counts for its source and mentions its target. -/
theorem edge_origin
    (hrun : (run st here options source schedule stopped root closed).result = .ok a)
    (h : a.raw.weight? s t = some w) :
    ∃ file ∈ (Walk.ofRoot st here a.root options.paths closed).1.files, ∃ literal content,
      (scopeOf options a.root).CountsFor source.contents s file literal content ∧
      t ∈ (scopeOf options a.root).mentions literal content := by
  rw [raw_of_run hrun] at h
  rcases Graph.weight?_mergeAll_origin h with ⟨w', hw'⟩ | ⟨counts, c, hmem, hc⟩
  · cases hw'
  · obtain ⟨outcome, houtcome, hcounts⟩ := List.mem_filterMap.1 hmem
    obtain ⟨file, hfile, rfl⟩ := List.mem_map.1 houtcome
    exact ⟨file, hfile, Scope.mem_mentions_of_counts hcounts hc⟩

theorem compact_raw
    (hrun : (run st here options source schedule stopped root closed).result = .ok a) :
    a.raw.Compact := by
  rw [raw_of_run hrun]
  exact Graph.compact_mergeAll Graph.compact_empty _

/-- A class that is bound is the one for which some file of the walk counts. -/
theorem vertex_origin
    (hrun : (run st here options source schedule stopped root closed).result = .ok a)
    (h : a.raw.contains s = true) :
    ∃ file ∈ (Walk.ofRoot st here a.root options.paths closed).1.files, ∃ literal content,
      (scopeOf options a.root).CountsFor source.contents s file literal content := by
  obtain ⟨t, w, hw⟩ := Graph.exists_weight?_of_contains (compact_raw hrun) h
  obtain ⟨file, hfile, literal, content, hfor, -⟩ := edge_origin hrun hw
  exact ⟨file, hfile, literal, content, hfor⟩

end Analysis

end ClassGraph
