/-
ClassGraph.Proofs.Tally.Lines — the lines of a file that are not text.

Such a line counts for nothing, but it is not passed over in silence: it
raises the number of lines that failed (`tally_failedLines`), and an event
tells its number (`addLine_of_bad`). The ways in which the handling of a file
can end are told apart once, with what each of them reports
(`handled_outcome`).
-/
import ClassGraph.Proofs.Tally.Share

namespace ClassGraph

namespace Scope

variable {scope : Scope} {path : Path} {literal : Name} {content line : Bytes} {lines : List Bytes}
  {n number : Nat}

/-! ## §1 The numbers of bad lines -/

/-- Whether a line is not text. -/
def isBadLine (line : Bytes) : Bool :=
  match Utf8.decode line with
  | .ok _ => false
  | .error _ => true

/-- The numbers of the lines that are not text, where the first line has the number `number`. -/
def badLinesFrom (number : Nat) (lines : List Bytes) : List Nat :=
  ((lines.zipIdx number).filter fun numbered => isBadLine numbered.1).map (·.2)

/-- The numbers of the lines of a file that are not text, counted from one. -/
def badLines (content : Bytes) : List Nat := badLinesFrom 1 (cut lineFeed content)

theorem badLinesFrom_cons (number : Nat) (line : Bytes) (rest : List Bytes) :
    badLinesFrom number (line :: rest) =
      if isBadLine line then number :: badLinesFrom (number + 1) rest
      else badLinesFrom (number + 1) rest := by
  simp only [badLinesFrom, List.zipIdx_cons, List.filter_cons]
  split <;> rfl

theorem length_badLinesFrom (number : Nat) (lines : List Bytes) :
    (badLinesFrom number lines).length = lines.countP isBadLine := by
  induction lines generalizing number with
  | nil => rfl
  | cons line rest ih =>
    rw [badLinesFrom_cons, List.countP_cons]
    split
    · rw [List.length_cons, ih]
    · rw [ih, Nat.add_zero]

/-- The numbers come in increasing order. -/
theorem pairwise_badLinesFrom (number : Nat) (lines : List Bytes) :
    (badLinesFrom number lines).Pairwise (· < ·) := by
  have hnumbers : (lines.zipIdx number).map Prod.snd = List.range' number lines.length :=
    List.zipIdx_map_snd number lines
  have hsublist := (List.filter_sublist (p := fun numbered => isBadLine numbered.1)
    (l := lines.zipIdx number)).map Prod.snd
  rw [hnumbers] at hsublist
  exact (List.pairwise_lt_range' ..).sublist hsublist

/-- A number is among those of bad lines where the line with that number is not text. -/
theorem mem_badLines :
    n ∈ badLines content ↔ ∃ i line, n = i + 1 ∧ (cut lineFeed content)[i]? = some line ∧
      isBadLine line = true := by
  simp only [badLines, badLinesFrom, List.mem_map, List.mem_filter, Prod.exists,
    List.mem_zipIdx_iff_le_and_getElem?_sub]
  constructor
  · rintro ⟨line, k, ⟨⟨hle, hline⟩, hbad⟩, rfl⟩
    exact ⟨k - 1, line, by omega, hline, hbad⟩
  · rintro ⟨i, line, rfl, hline, hbad⟩
    exact ⟨line, i + 1, ⟨⟨by omega, hline⟩, hbad⟩, rfl⟩

/-! ## §2 What is told of bad lines -/

theorem eventOf?_eq_some {sighting : Reference.Sighting} {e : Event}
    (h : eventOf? sighting = some e) : ∃ depth, e = .tooDeep depth := by
  cases sighting with
  | reference body => cases h
  | tooDeep depth =>
    cases h
    exact ⟨depth, rfl⟩

theorem addLine_of_bad (h : isBadLine line = true) (scope : Scope) (path : Path) (literal : Name)
    (t : Tally) (number : Nat) :
    (scope.addLine path literal t number line).1.failedLines = t.failedLines + 1 ∧
      ∃ cause, (scope.addLine path literal t number line).2 = [.badLine path number cause] := by
  unfold isBadLine at h
  unfold addLine
  cases hline : Utf8.decode line with
  | ok text =>
    rw [hline] at h
    cases h
  | error cause => exact ⟨rfl, cause, rfl⟩

theorem addLine_of_text (h : isBadLine line = false) (scope : Scope) (path : Path) (literal : Name)
    (t : Tally) (number : Nat) :
    (scope.addLine path literal t number line).1.failedLines = t.failedLines ∧
      ∀ e ∈ (scope.addLine path literal t number line).2, ∃ depth, e = .tooDeep depth := by
  unfold isBadLine at h
  unfold addLine
  cases hline : Utf8.decode line with
  | error cause =>
    rw [hline] at h
    cases h
  | ok text =>
    refine ⟨rfl, fun e he => ?_⟩
    obtain ⟨sighting, -, hevent⟩ := List.mem_filterMap.1 he
    exact eventOf?_eq_some hevent

theorem addLines_cons (scope : Scope) (path : Path) (literal : Name) (t : Tally) (number : Nat)
    (line : Bytes) (rest : List Bytes) :
    scope.addLines path literal t number (line :: rest)
      = ((scope.addLines path literal (scope.addLine path literal t number line).1 (number + 1)
          rest).1,
        (scope.addLine path literal t number line).2
          ++ (scope.addLines path literal (scope.addLine path literal t number line).1 (number + 1)
            rest).2) := rfl

theorem addLines_failedLines (scope : Scope) (path : Path) (literal : Name) (t : Tally)
    (number : Nat) (lines : List Bytes) :
    (scope.addLines path literal t number lines).1.failedLines
      = t.failedLines + (badLinesFrom number lines).length := by
  induction lines generalizing t number with
  | nil => rfl
  | cons line rest ih =>
    have hrest := ih (scope.addLine path literal t number line).1 (number + 1)
    rw [addLines_cons, badLinesFrom_cons, hrest]
    cases hbad : isBadLine line with
    | true =>
      rw [(addLine_of_bad hbad scope path literal t number).1, if_pos rfl, List.length_cons]
      omega
    | false =>
      rw [(addLine_of_text hbad scope path literal t number).1]
      rfl

theorem tally_failedLines (scope : Scope) (path : Path) (literal : Name) (content : Bytes) :
    (scope.tally path literal content).1.failedLines = (badLines content).length := by
  have hlines := scope.addLines_failedLines path literal ⟨literal.nearestNamed, SortedMap.empty, 0⟩
    1 (cut lineFeed content)
  have henclosing : ∀ t : Tally, (addEnclosing t).failedLines = t.failedLines := by
    intro t
    unfold addEnclosing
    split <;> rfl
  exact (henclosing _).trans (hlines.trans (Nat.zero_add _))

/-! ## §3 How the handling of a file ends -/

/-- The content of a file that is processed: it can be read, and its class takes part. -/
def processed? (scope : Scope) (contents : Contents) (file : Path) : Option Bytes :=
  if scope.reads file then (contents file).toOption else none

theorem processed?_of_unread {contents : Contents} {file : Path} (h : scope.reads file = false) :
    scope.processed? contents file = none := by
  rw [processed?, h]
  rfl

/-- What becomes of a file, with what is told of it. -/
inductive Handled (scope : Scope) (contents : Contents) (file : Path) :
    FileOutcome × List Event → Prop where
  | unnamed (cause : NamingError) (hname : Name.ofPath? scope.root file = .error cause)
    (hnone : scope.processed? contents file = none) :
    Handled scope contents file (.failed, [.unnamed file cause])
  | excluded (literal : Name) (hreads : scope.reads file = false)
    (hnone : scope.processed? contents file = none) :
    Handled scope contents file
      (.excluded literal.nearestNamed, [.excludedClass literal.nearestNamed])
  | unreadable (cause : Text) (hreads : scope.reads file = true)
    (hread : contents file = .error cause) (hnone : scope.processed? contents file = none) :
    Handled scope contents file (.failed, [.unreadable file cause])
  | counted (literal : Name) (content : Bytes) (hreads : scope.reads file = true)
    (hread : contents file = .ok content)
    (hprocessed : scope.processed? contents file = some content) :
    Handled scope contents file
      (.counted (scope.tally file literal content).1, (scope.tally file literal content).2)

/-- The handling of a file ends in one of four ways. -/
theorem handled_outcome (scope : Scope) (contents : Contents) (file : Path) :
    scope.Handled contents file (scope.outcome contents file) := by
  cases hname : Name.ofPath? scope.root file with
  | error cause =>
    have hhandling := handling_of_unnamed hname
    have hreads : scope.reads file = false := by rw [reads, hhandling]; rfl
    rw [outcome, hhandling]
    exact .unnamed cause hname (processed?_of_unread hreads)
  | ok literal =>
    have hhandling := handling_of_named hname
    cases hclass : Selection.passes scope.classes literal.nearestNamed with
    | false =>
      rw [hclass] at hhandling
      have hreads : scope.reads file = false := by rw [reads, hhandling]; rfl
      rw [outcome, hhandling]
      exact .excluded literal hreads (processed?_of_unread hreads)
    | true =>
      rw [hclass] at hhandling
      have hreads : scope.reads file = true := by rw [reads, hhandling]; rfl
      have hprocessed : scope.processed? contents file = (contents file).toOption := by
        rw [processed?, if_pos hreads]
      rw [outcome, hhandling]
      cases hread : contents file with
      | error cause =>
        rw [hread] at hprocessed
        exact .unreadable cause hreads hread hprocessed
      | ok content =>
        rw [hread] at hprocessed
        exact .counted literal content hreads hread hprocessed

end Scope

end ClassGraph
