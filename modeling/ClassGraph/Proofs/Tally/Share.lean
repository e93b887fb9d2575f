/-
ClassGraph.Proofs.Tally.Share — what a file adds to an edge.

`share` says it without the counting: the references of the file's lines that
are references to the target, and one more where the target is the class
around the file's nested class. `added_outcome` is the link to the counts:
merging the outcome of a file adds its share to every edge, if the file is
shorter than 2^32 bytes.
-/
import ClassGraph.Proofs.Tally.Mentions

namespace ClassGraph

/-- The counts of a file that has some, with the class for which they count. -/
def FileOutcome.counts? : FileOutcome → Option (Name × Counts)
  | .counted t => some (t.name, t.counts)
  | .excluded _ => none
  | .failed => none

namespace Scope

variable {scope : Scope} {contents : Contents} {file : Path} {literal s t : Name}

/-! ## §1 References to a class -/

/-- Whether a reference in a file of the class `s` is one to the class `t`, and counts. -/
def refersTo (scope : Scope) (s t : Name) (body : Text) : Bool :=
  Selection.passes scope.paths body && Name.ofDescriptor body == t && !t.isEmpty
    && Selection.passes scope.classes t && !t.isAnonymous && !scope.generated.isGenerated t
    && t != s

/-- The number of references to `t` in a line of a file of the class `s`. -/
def referencesIn (scope : Scope) (s t : Name) (line : Bytes) : Nat :=
  match Utf8.decode line with
  | .ok line => (Reference.inLine line).keys.countP (scope.refersTo s t)
  | .error _ => 0

/-- What a file adds to the edge from `s` to `t`. -/
def share (scope : Scope) (contents : Contents) (s t : Name) (file : Path) : Nat :=
  match Name.ofPath? scope.root file, contents file with
  | .ok literal, .ok content =>
    if literal.nearestNamed = s ∧ Selection.passes scope.classes s = true then
      ((cut lineFeed content).map (scope.referencesIn s t)).sum
        + if s.isInner = true ∧ t = s.outer then 1 else 0
    else 0
  | _, _ => 0

theorem refersTo_self (scope : Scope) (s : Name) (body : Text) :
    scope.refersTo s s body = false := by
  simp [refersTo]

theorem eq_ofDescriptor_of_refersTo {body : Text} (h : scope.refersTo s t body = true) :
    t = Name.ofDescriptor body := by
  simp only [refersTo, Bool.and_eq_true, beq_iff_eq] at h
  exact h.1.1.1.1.1.2.symm

theorem passes_of_refersTo {body : Text} (h : scope.refersTo s t body = true) :
    Selection.passes scope.classes t = true := by
  simp only [refersTo, Bool.and_eq_true] at h
  exact h.1.1.1.2

theorem isAnonymous_of_refersTo {body : Text} (h : scope.refersTo s t body = true) :
    t.isAnonymous = false := by
  simp only [refersTo, Bool.and_eq_true, Bool.not_eq_true'] at h
  exact h.1.1.2

theorem isGenerated_of_refersTo {body : Text} (h : scope.refersTo s t body = true) :
    scope.generated.isGenerated t = false := by
  simp only [refersTo, Bool.and_eq_true, Bool.not_eq_true'] at h
  exact h.1.2

/-- A reference to the class that a file holds is one to the class for which the file counts, or
one to an anonymous class: leaving it out once more changes nothing. -/
theorem dependency?_eq_some_iff {body : Text} :
    scope.dependency? literal.nearestNamed literal body = some t
      ↔ scope.refersTo literal.nearestNamed t body = true := by
  have hliteral : ∀ n : Name, n.isAnonymous = false → n ≠ literal.nearestNamed → n ≠ literal := by
    rintro n hn hne rfl
    have := Name.isAnonymous_of_nearestNamed_ne fun e => hne e.symm
    rw [hn] at this
    cases this
  simp only [dependency?, refersTo]
  constructor
  · intro h
    split at h
    · next hall =>
      cases h
      simp only [Bool.and_eq_true] at hall
      simp only [Bool.and_eq_true, beq_self_eq_true, and_true]
      exact hall.1
    · cases h
  · intro h
    simp only [Bool.and_eq_true, beq_iff_eq, Bool.not_eq_true', bne_iff_ne, ne_eq] at h
    obtain ⟨⟨⟨⟨⟨⟨hpath, rfl⟩, hempty⟩, hclass⟩, hanon⟩, hgen⟩, hself⟩ := h
    have hne := hliteral _ hanon hself
    simp [hpath, hempty, hclass, hanon, hgen, hself, hne]

/-- A file mentions the class around its own, and the classes that its lines refer to. -/
theorem mem_mentions_cases {content : Bytes} (h : t ∈ scope.mentions literal content) :
    (literal.nearestNamed.isInner = true ∧ t = literal.nearestNamed.outer) ∨
      ∃ line ∈ cut lineFeed content, ∃ text, Utf8.decode line = .ok text ∧
        ∃ body ∈ (Reference.inLine text).keys,
          scope.refersTo literal.nearestNamed t body = true := by
  rw [mentions, List.mem_append, List.mem_flatMap] at h
  rcases h with ⟨line, hline, hm⟩ | hm
  · right
    unfold mentionsIn at hm
    split at hm
    · next text htext =>
      obtain ⟨body, hbody, hd⟩ := List.mem_filterMap.1 hm
      exact ⟨line, hline, text, htext, body, hbody, dependency?_eq_some_iff.1 hd⟩
    · cases hm
  · left
    unfold enclosingMention at hm
    split at hm
    · next hinner => exact ⟨hinner, List.mem_singleton.1 hm⟩
    · cases hm

theorem count_mentionsIn (scope : Scope) (literal t : Name) (line : Bytes) :
    (scope.mentionsIn literal.nearestNamed literal line).count t
      = scope.referencesIn literal.nearestNamed t line := by
  unfold mentionsIn referencesIn
  cases Utf8.decode line with
  | error cause => rfl
  | ok text =>
    simp only [dependenciesIn, List.count_filterMap]
    refine List.countP_congr fun body _ => ?_
    rw [beq_iff_eq, dependency?_eq_some_iff]

theorem count_enclosingMention (s t : Name) :
    (enclosingMention s).count t = if s.isInner = true ∧ t = s.outer then 1 else 0 := by
  unfold enclosingMention
  by_cases hs : s.isInner = true
  · by_cases ht : t = s.outer
    · simp [hs, ht]
    · have hne : ¬ s.outer = t := fun e => ht e.symm
      simp [hs, ht, hne]
  · simp [hs]

/-- How often a file mentions a class, said without the counting. -/
theorem count_mentions (scope : Scope) (literal t : Name) (content : Bytes) :
    (scope.mentions literal content).count t
      = ((cut lineFeed content).map (scope.referencesIn literal.nearestNamed t)).sum
        + if literal.nearestNamed.isInner = true ∧ t = literal.nearestNamed.outer then 1
          else 0 := by
  have hlines : List.count t ∘ scope.mentionsIn literal.nearestNamed literal
      = scope.referencesIn literal.nearestNamed t := by
    funext line
    exact scope.count_mentionsIn literal t line
  rw [mentions, List.count_append, List.count_flatMap, hlines, count_enclosingMention]

/-- A file does not mention the class for which it counts. -/
theorem count_mentions_self (scope : Scope) (literal : Name) (content : Bytes) :
    (scope.mentions literal content).count literal.nearestNamed = 0 := by
  rw [List.count_eq_zero]
  intro hm
  rcases mem_mentions_cases hm with ⟨hinner, houter⟩ | ⟨line, -, text, -, body, -, hrefers⟩
  · exact Name.outer_ne hinner houter.symm
  · rw [refersTo_self] at hrefers
    cases hrefers

/-! ## §2 The share of a file -/

/-- What becomes of a file whose class has a name. -/
theorem counts?_outcome (scope : Scope) (contents : Contents) (file : Path) :
    (scope.outcome contents file).1.counts? =
      match Name.ofPath? scope.root file, contents file with
      | .ok literal, .ok content =>
        if Selection.passes scope.classes literal.nearestNamed = true then
          some (literal.nearestNamed, (scope.tally file literal content).1.counts)
        else none
      | _, _ => none := by
  unfold outcome
  cases hname : Name.ofPath? scope.root file with
  | error cause =>
    rw [handling_of_unnamed hname]
    rfl
  | ok literal =>
    rw [handling_of_named hname]
    cases hclass : Selection.passes scope.classes literal.nearestNamed with
    | false => cases contents file <;> simp [Handling.result, FileOutcome.counts?, hclass]
    | true =>
      cases contents file with
      | error cause => rfl
      | ok content =>
        simp [Handling.result, ofReading, FileOutcome.counts?, tally_name, hclass]

/-- The counts of a file are those of its tally, for a class that takes part. -/
theorem counts_of_counted {tally : Tally} (h : (scope.outcome contents file).1 = .counted tally) :
    ∃ literal content, Name.ofPath? scope.root file = .ok literal ∧ contents file = .ok content ∧
      Selection.passes scope.classes literal.nearestNamed = true ∧
      tally.name = literal.nearestNamed ∧
      tally.counts = (scope.tally file literal content).1.counts := by
  have hcounts := counts?_outcome scope contents file
  rw [h] at hcounts
  split at hcounts
  · next literal content hname hread =>
    split at hcounts
    · next hclass =>
      exact ⟨literal, content, hname, hread, hclass, Prod.mk.inj (Option.some.inj hcounts)⟩
    · cases hcounts
  · cases hcounts

/-- What counts for a file counts for a class that takes part. -/
theorem outcome_eq_counted {tally : Tally} (h : (scope.outcome contents file).1 = .counted tally) :
    ∃ literal content, Name.ofPath? scope.root file = .ok literal ∧ contents file = .ok content ∧
      Selection.passes scope.classes literal.nearestNamed = true ∧
      tally.name = literal.nearestNamed := by
  obtain ⟨literal, content, hname, hread, hclass, hfolded, -⟩ := counts_of_counted h
  exact ⟨literal, content, hname, hread, hclass, hfolded⟩

theorem added_tally {content : Bytes} (h : content.length < UInt32.size) (s t : Name) :
    Graph.added literal.nearestNamed (scope.tally file literal content).1.counts s t
      = if literal.nearestNamed = s then (scope.mentions literal content).count t else 0 := by
  have hlt : (scope.mentions literal content).count t < UInt32.size :=
    Nat.lt_of_le_of_lt List.count_le_length (scope.length_mentions_lt literal h)
  have hcount : (((scope.tally file literal content).1.counts.find? t).getD 0).toNat
      = (scope.mentions literal content).count t := by
    rw [find?_tally]
    split
    · next h0 => rw [h0]; rfl
    · rw [Option.getD_some, UInt32.toNat_ofNat_of_lt' hlt]
  rw [Graph.added, hcount]
  by_cases hs : literal.nearestNamed = s
  · subst hs
    by_cases ht : t = literal.nearestNamed
    · subst ht
      simp [count_mentions_self]
    · simp [ht]
  · simp [hs]

/-- Merging the outcome of a file adds its share to every edge. -/
theorem added_outcome (hshort : ∀ content, contents file = .ok content →
    content.length < UInt32.size) (s t : Name) :
    ((scope.outcome contents file).1.counts?.map fun (source, counts) =>
      Graph.added source counts s t).getD 0 = scope.share contents s t file := by
  rw [counts?_outcome, share]
  cases Name.ofPath? scope.root file with
  | error cause => rfl
  | ok literal =>
    cases hc : contents file with
    | error cause => rfl
    | ok content =>
      by_cases hp : Selection.passes scope.classes literal.nearestNamed = true
      · simp only [if_pos hp, Option.map_some, Option.getD_some, added_tally (hshort content hc),
          count_mentions]
        by_cases hs : literal.nearestNamed = s
        · subst hs
          simp [hp]
        · simp [hs]
      · have hnone : ¬ (literal.nearestNamed = s ∧ Selection.passes scope.classes s = true) := by
          rintro ⟨rfl, h⟩
          exact hp h
        simp only [if_neg hp, if_neg hnone]
        rfl

/-! ## §3 Files that add to an edge -/

/-- The share of a file that takes part is how often it mentions the class. -/
theorem share_eq_count {content : Bytes} (hname : Name.ofPath? scope.root file = .ok literal)
    (hread : contents file = .ok content)
    (hclass : Selection.passes scope.classes literal.nearestNamed = true) (t : Name) :
    scope.share contents literal.nearestNamed t file
      = (scope.mentions literal content).count t := by
  rw [share, hname, hread, count_mentions]
  exact if_pos ⟨rfl, hclass⟩

/-- Only a file of the source that mentions the target adds to an edge. -/
theorem mem_mentions_of_share (h : scope.share contents s t file ≠ 0) :
    ∃ literal content, Name.ofPath? scope.root file = .ok literal ∧ contents file = .ok content ∧
      literal.nearestNamed = s ∧ Selection.passes scope.classes s = true ∧
      t ∈ scope.mentions literal content := by
  cases hname : Name.ofPath? scope.root file with
  | error cause => exact absurd (by rw [share, hname]) h
  | ok literal =>
    cases hread : contents file with
    | error cause => exact absurd (by rw [share, hname, hread]) h
    | ok content =>
      by_cases hpart : literal.nearestNamed = s ∧ Selection.passes scope.classes s = true
      · obtain ⟨rfl, hclass⟩ := hpart
        rw [share_eq_count hname hread hclass] at h
        exact ⟨literal, content, rfl, rfl, rfl, hclass,
          List.count_pos_iff.1 (Nat.pos_of_ne_zero h)⟩
      · exact absurd (by rw [share, hname, hread]; exact if_neg hpart) h

theorem isAnonymous_of_mem_mentions {content : Bytes} (h : t ∈ scope.mentions literal content) :
    t.isAnonymous = false := by
  rcases mem_mentions_cases h with ⟨-, rfl⟩ | ⟨line, -, text, -, body, -, hrefers⟩
  · exact Name.isAnonymous_outer _
  · exact isAnonymous_of_refersTo hrefers

/-- A nested class always mentions the class around it. -/
theorem outer_mem_mentions (h : literal.nearestNamed.isInner = true) (scope : Scope)
    (content : Bytes) : literal.nearestNamed.outer ∈ scope.mentions literal content := by
  rw [mentions, List.mem_append, enclosingMention, if_pos h]
  exact .inr (List.mem_singleton.2 rfl)

/-- A file of a nested class adds to the edge to the class around it. -/
theorem share_outer_ne_zero {content : Bytes}
    (hname : Name.ofPath? scope.root file = .ok literal) (hread : contents file = .ok content)
    (hclass : Selection.passes scope.classes literal.nearestNamed = true)
    (hinner : literal.nearestNamed.isInner = true) :
    scope.share contents literal.nearestNamed literal.nearestNamed.outer file ≠ 0 := by
  rw [share_eq_count hname hread hclass]
  exact Nat.ne_of_gt (List.count_pos_iff.2 (outer_mem_mentions hinner scope content))

end Scope

end ClassGraph
