/-
ClassGraph.Proofs.Settings.Excluded — which classes are left out, by what the
patterns mean on their own.

The settings name the classes to leave out by patterns, of which each must
match the whole of a name. A pattern means on its own what it means inside the
group in which it is read, as long as it closes no group but its own
(`IsContained`): settings that hold such patterns alone are taken exactly
where all of them can be used, the first that cannot be used is named by the
error, and the classes that pass are those whose names none of them matches.
A pattern that is valid on its own can still be refused, since a comment at
its end takes in what closes the group: `valid_pattern_refused`.
-/
import ClassGraph.Proofs.Pattern.Whole
import ClassGraph.Proofs.Settings.Ignored

namespace ClassGraph

/-! ## §1 One pattern -/

namespace Pattern

variable {written s : Text} {q : Pattern} {e : InvalidPattern}

/-- A text writes down a pattern. -/
def IsValid (written : Text) : Prop := ∃ p, read written = .ok p

/-- A text writes down a pattern that can be selected by. -/
def IsUsable (written : Text) : Prop := IsValid written ∧ fits written = true

/-- A text does not close, as it is read, a group that it does not open. -/
def IsContained (written : Text) : Prop := read written ≠ .error .unopenedGroup

/-- A text writes down a pattern of which another text, as a whole, is one stretch. -/
def MatchesWhole (written s : Text) : Prop := ∃ p, read written = .ok p ∧ p.Stretch [] s []

theorem IsValid.isContained (h : IsValid written) : IsContained written := by
  obtain ⟨p, hp⟩ := h
  simp [IsContained, hp]

theorem isUsable_iff (h : IsContained written) :
    IsUsable written ↔ ∃ q, readWhole written = .ok q := by
  simp only [readWhole_eq_ok h]
  constructor
  · rintro ⟨⟨p, hp⟩, hfits⟩
    exact ⟨p.whole, p, hp, hfits, rfl⟩
  · rintro ⟨_, p, hp, hfits, -⟩
    exact ⟨⟨p, hp⟩, hfits⟩

theorem not_isUsable_iff (h : IsContained written) :
    ¬IsUsable written ↔ ∃ e, readWhole written = .error e := by
  rw [isUsable_iff h]
  cases readWhole written <;> simp

theorem matchesWhole_iff (h : IsContained written) (hread : readWhole written = .ok q) :
    matchesWhole written s = true ↔ MatchesWhole written s := by
  obtain ⟨p, hp, -, rfl⟩ := (readWhole_eq_ok h).1 hread
  rw [matchesWhole, hread, MatchesWhole, hp]
  simp [Except.toOption, foundIn_whole]

theorem written_of_readWhole (h : readWhole written = .error e) : e.written = written := by
  unfold readWhole at h
  split at h
  · cases h
  · cases h
    rfl

end Pattern

/-! ## §2 The first that cannot be used -/

namespace Settings

open Pattern

variable {patterns : List Text} {c : Settings} {e : InvalidPattern}

theorem excluded_cons_eq_error {written : Text} :
    excluded (written :: patterns) = .error e ↔ readWhole written = .error e ∨
      (∃ q, readWhole written = .ok q) ∧ excluded patterns = .error e := by
  rw [excluded, Selection.ofExcluded]
  cases readWhole written with
  | error e' => simp [Except.map, Except.bind]
  | ok q => cases excluded patterns <;> simp [Except.map, Except.bind]

/-- A list of patterns is refused by the first of them that cannot be read. -/
theorem excluded_eq_error : excluded patterns = .error e ↔ ∃ before after,
    patterns = before ++ e.written :: after ∧ (∀ written ∈ before, ∃ q, readWhole written = .ok q) ∧
      readWhole e.written = .error e := by
  induction patterns with
  | nil => simp [excluded]
  | cons written patterns ih =>
    rw [excluded_cons_eq_error, ih]
    constructor
    · rintro (he | ⟨hq, before, after, rfl, hbefore, he⟩)
      · obtain rfl := written_of_readWhole he
        exact ⟨[], patterns, rfl, by simp, he⟩
      · exact ⟨written :: before, after, rfl, List.forall_mem_cons.2 ⟨hq, hbefore⟩, he⟩
    · rintro ⟨before, after, hlist, hbefore, he⟩
      cases before with
      | nil =>
        obtain ⟨rfl, -⟩ := List.cons.inj hlist
        exact .inl he
      | cons first before =>
        obtain ⟨rfl, rfl⟩ := List.cons.inj hlist
        obtain ⟨hq, hbefore⟩ := List.forall_mem_cons.1 hbefore
        exact .inr ⟨hq, before, after, rfl, hbefore, he⟩

theorem classes_eq_error : c.classes = .error e ↔ excluded c.ignored = .error e := by
  unfold classes
  split
  · next hempty =>
    rw [List.isEmpty_iff.1 hempty]
    simp [excluded]
  · cases excluded c.ignored <;> simp [Except.map]

/-! ## §3 What is left out -/

/-- How patterns select the classes that they do not match. -/
structure LeavesOut (patterns : List Text) (outcome : Except InvalidPattern (Option Selection)) :
    Prop where
  /-- There is no selection where a pattern cannot be used. -/
  fails_iff : (∃ e, outcome = .error e) ↔ ∃ written ∈ patterns, ¬IsUsable written
  /-- The error names the first such pattern. -/
  names_first : ∀ e, outcome = .error e → ∃ before first after,
    patterns = before ++ first :: after ∧ (∀ written ∈ before, IsUsable written) ∧
      ¬IsUsable first ∧ e.message = "Invalid filter pattern: ".toList ++ first
  /-- What passes is not matched by any pattern. -/
  passes_iff : ∀ classes, outcome = .ok classes → ∀ n,
    Selection.passes classes n = true ↔ ∀ written ∈ patterns, ¬MatchesWhole written n

theorem readWhole_of_classes {classes : Option Selection} (h : c.classes = .ok classes)
    {written : Text} (hmem : written ∈ c.ignored) : ∃ q, readWhole written = .ok q := by
  obtain ⟨found, hfound⟩ := ofPattern_of_classes h hmem
  obtain ⟨q, hq, -⟩ := map_eq_ok.1 hfound
  exact ⟨q, hq⟩

/-- **Patterns leave out what they match on their own**, where each of them closes no group but its
own. -/
theorem leavesOut_classes (h : ∀ written ∈ c.ignored, IsContained written) :
    LeavesOut c.ignored c.classes := by
  have hfirst : ∀ e, c.classes = .error e → ∃ before after,
      c.ignored = before ++ e.written :: after ∧
        (∀ written ∈ before, IsUsable written) ∧ ¬IsUsable e.written := by
    intro e he
    obtain ⟨before, after, hlist, hbefore, hread⟩ := excluded_eq_error.1 (classes_eq_error.1 he)
    rw [hlist, List.forall_mem_append, List.forall_mem_cons] at h
    obtain ⟨hcontained, hwritten, -⟩ := h
    exact ⟨before, after, hlist,
      fun written hmem => (isUsable_iff (hcontained written hmem)).2 (hbefore written hmem),
      (not_isUsable_iff hwritten).2 ⟨e, hread⟩⟩
  constructor
  case fails_iff =>
    constructor
    · rintro ⟨e, he⟩
      obtain ⟨before, after, hlist, -, hunusable⟩ := hfirst e he
      exact ⟨e.written, by simp [hlist], hunusable⟩
    · rintro ⟨written, hmem, hunusable⟩
      cases hclasses : c.classes with
      | error e => exact ⟨e, rfl⟩
      | ok classes =>
        have hread := readWhole_of_classes hclasses hmem
        exact absurd ((isUsable_iff (h written hmem)).2 hread) hunusable
  case names_first =>
    intro e he
    obtain ⟨before, after, hlist, hbefore, hunusable⟩ := hfirst e he
    exact ⟨before, e.written, after, hlist, hbefore, hunusable, rfl⟩
  case passes_iff =>
    intro classes hclasses n
    rw [passes_classes hclasses, Bool.not_eq_true', List.any_eq_false]
    refine forall₂_congr fun written hmem => not_congr ?_
    obtain ⟨q, hq⟩ := readWhole_of_classes hclasses hmem
    exact matchesWhole_iff (h written hmem) hq

/-- Settings with two patterns of classes. -/
def twoPatterns : Settings := { usual with ignored := ["a|b".toList, "c[^d]{2}".toList] }

theorem leavesOut_twoPatterns : (∀ written ∈ twoPatterns.ignored, IsContained written) ∧
    LeavesOut twoPatterns.ignored twoPatterns.classes ∧
    ∃ classes, twoPatterns.classes = .ok classes ∧
      Selection.passes classes "b".toList = false ∧
      Selection.passes classes "ab".toList = true := by
  have hcontained : ∀ written ∈ twoPatterns.ignored, IsContained written := by
    intro written hmem
    apply IsValid.isContained
    rcases List.mem_cons.1 hmem with rfl | hmem
    · exact ⟨_, rfl⟩
    · obtain rfl := List.mem_singleton.1 hmem
      exact ⟨_, rfl⟩
  exact ⟨hcontained, leavesOut_classes hcontained, _, rfl, by decide, by decide⟩

/-- A pattern that closes the group around it is not valid on its own, and taken all the same. -/
example : ¬IsContained "a)|(?:b".toList ∧ ∃ q, readWhole "a)|(?:b".toList = .ok q :=
  ⟨fun h => h rfl, _, rfl⟩

/-- Settings whose pattern ends in a comment. -/
def commentedPattern : Settings := { usual with ignored := ["(?x)a#b".toList] }

/-- A pattern that is valid on its own is refused as an excluding one. -/
theorem valid_pattern_refused : (∀ written ∈ commentedPattern.ignored, IsValid written) ∧
    ∃ e, commentedPattern.classes = .error e := by
  constructor
  · intro written hmem
    obtain rfl := List.mem_singleton.1 hmem
    exact ⟨_, rfl⟩
  · exact ⟨_, rfl⟩

end Settings

end ClassGraph
