/-
ClassGraph.Proofs.Reference.Standing — every reference stands in its line.

Arguments are read as texts of their own, cut out of the line at brackets
that may match nothing. Still nothing is read that the line does not hold:
`stands_of_mem_inLine` says that a reference stands in the line behind an
`L`, and in front of the `;` that ends it or of the bracket that opens its
type arguments.

The induction is over the steps of the reader. What stands in a part of a
text stands in the text (`Stands.within`), and every step leaves parts of
the text only.
-/
import ClassGraph.Proofs.Reference.Reads

namespace ClassGraph.Reference

variable {bound : Option Nat} {depth : Nat} {body name inside text : Text}

/-! ## §1 What stands in a text -/

/-- The first bracket of a body, if it has one, is not followed by an `L`. -/
def OpensNone (body : Text) : Prop :=
  ∀ before behind, body = before ++ '<' :: behind → '<' ∉ before → behind.head? ≠ some 'L'

theorem opensNone_of_argumentsOf? (h : argumentsOf? body = none) : OpensNone body := by
  intro before behind hbody hbefore hhead
  obtain ⟨s, rfl⟩ := List.head?_eq_some_iff.1 hhead
  have hsome := argumentsOf?_eq_some.2 ⟨hbefore, s, hbody⟩
  rw [h] at hsome
  cases hsome

/-- A reference as it stands in a text, behind an `L`. -/
inductive Stands (body : Text) : Text → Prop where
  /-- A `;` ends it, and it opens no type arguments. -/
  | ended (pre post : Text) : OpensNone body → Stands body (pre ++ 'L' :: (body ++ ';' :: post))
  /-- Type arguments follow it. -/
  | opening (pre post : Text) : '<' ∉ body →
      Stands body (pre ++ 'L' :: (body ++ '<' :: 'L' :: post))

/-- What stands in a part of a text stands in the text. -/
theorem Stands.within (h : Stands body text) (before behind : Text) :
    Stands body (before ++ (text ++ behind)) := by
  cases h with
  | ended pre post hnone =>
    have hparts : before ++ (pre ++ 'L' :: (body ++ ';' :: post) ++ behind)
        = (before ++ pre) ++ 'L' :: (body ++ ';' :: (post ++ behind)) := by simp
    rw [hparts]
    exact .ended _ _ hnone
  | opening pre post hbracket =>
    have hparts : before ++ (pre ++ 'L' :: (body ++ '<' :: 'L' :: post) ++ behind)
        = (before ++ pre) ++ 'L' :: (body ++ '<' :: 'L' :: (post ++ behind)) := by simp
    rw [hparts]
    exact .opening _ _ hbracket

theorem Stands.behind (h : Stands body text) (before : Text) : Stands body (before ++ text) := by
  have hwithin := h.within before []
  rwa [List.append_nil] at hwithin

/-! ## §2 No step makes a reference up -/

/-- A name stands in front of its type arguments. -/
theorem Opens.stands (ho : Opens name inside) (lead : Text) :
    Stands name (lead ++ 'L' :: (name ++ '<' :: inside)) := by
  obtain ⟨s, rfl⟩ := ho.begins
  exact .opening lead s ho.avoids

/-- What stands behind the bracket of a name stands in the text. -/
theorem Stands.behindBracket (h : Stands body inside) (lead name : Text) :
    Stands body (lead ++ 'L' :: (name ++ '<' :: inside)) := by
  have hparts : lead ++ 'L' :: (name ++ '<' :: inside)
      = (lead ++ 'L' :: (name ++ ['<'])) ++ inside := by simp
  rw [hparts]
  exact h.behind _

/-- Reading comes upon what stands in the text. -/
theorem Reads.stands {found : List Sighting} (h : Reads bound depth text found)
    (hb : .reference body ∈ found) : Stands body text := by
  induction h with
  | quiet => cases hb
  | unended => cases hb
  | @word depth lead word rest found hl hword hw hr ih =>
    have hparts : lead ++ 'L' :: (word ++ ';' :: rest)
        = (lead ++ ['L']) ++ (word ++ ';' :: rest) := by simp
    rw [hparts]
    exact (ih hb).behind _
  | @plain depth lead plain rest found hl hplain ha hr ih =>
    rcases List.mem_cons.1 hb with he | hb
    · cases he
      exact .ended lead rest (opensNone_of_argumentsOf? ha)
    · have hparts : lead ++ 'L' :: (plain ++ ';' :: rest)
          = (lead ++ 'L' :: (plain ++ [';'])) ++ rest := by simp
      rw [hparts]
      exact (ih hb).behind _
  | @closed depth lead name inside args rest inner found hl ho hc hdeep hread hr ihInner ih =>
    rcases List.mem_append.1 hb with hb | hb
    · rcases List.mem_append.1 hb with hb | hb
      · obtain ⟨rfl, -⟩ := reference_mem_sighted.1 hb
        exact ho.stands lead
      · -- the arguments end at a bracket of the text
        have hargs := (ihInner (isRead_of_mem hdeep hb) hb).within [] ('>' :: rest)
        rw [closing_eq_some hc]
        exact hargs.behindBracket lead name
    · have hrest := (ih hb).behind (args ++ ['>'])
      rw [List.append_assoc, List.singleton_append, ← closing_eq_some hc] at hrest
      exact hrest.behindBracket lead name
  | @opened depth lead name inside inner hl ho hc hdeep hread ihInner =>
    rcases List.mem_append.1 hb with hb | hb
    · obtain ⟨rfl, -⟩ := reference_mem_sighted.1 hb
      exact ho.stands lead
    · exact (ihInner (isRead_of_mem hdeep hb) hb).behindBracket lead name

/-! ## §3 The references of a line -/

theorem isBodyChar_iff {c : Char} :
    isBodyChar c = true ↔ c.isAlphanum = true ∨ c ∈ ['_', '/', '$', '<', '>'] := by
  simp [isBodyChar, or_assoc]

/-- The name of a class holds no slash, and of its body only what precedes the first bracket. -/
theorem mem_ofDescriptor {c : Char} (h : c ∈ Name.ofDescriptor body) :
    c ≠ '/' ∧ c ≠ '<' ∧ (c = '.' ∨ c ∈ body) := by
  obtain ⟨b, hb, rfl⟩ := List.mem_map.1 h
  have hbracket : b ≠ '<' := by simpa using of_mem_takeWhile hb
  have hbody : b ∈ body := List.takeWhile_subset _ hb
  split
  · exact ⟨by decide, by decide, .inl rfl⟩
  · next hslash => exact ⟨hslash, hbracket, .inr hbody⟩

/-- **Reading makes nothing up**: whatever a line holds, a reference that is read from it is not
empty, is made of body characters and stands in the line. So the class that it names has neither
slash, bracket nor `;` in its name. -/
theorem stands_of_mem_inLine {line body : Text} (h : body ∈ (inLine line).keys) :
    body ≠ [] ∧ (∀ c ∈ body, c.isAlphanum = true ∨ c ∈ ['_', '/', '$', '<', '>']) ∧
      Stands body line ∧ ∀ c ∈ ['/', '<', ';'], c ∉ Name.ofDescriptor body := by
  have hbody := isBody_of_mem_inLine h
  simp only [isBody, Bool.and_eq_true, Bool.not_eq_true', List.isEmpty_eq_false_iff,
    List.all_eq_true] at hbody
  obtain ⟨hne, hall⟩ := hbody
  refine ⟨hne, fun c hc => isBodyChar_iff.1 (hall c hc),
    (reads_scan (some maxDepth) 0 line).stands (mem_inLine.1 h), ?_⟩
  intro c hc hname
  obtain ⟨hslash, hbracket, hin⟩ := mem_ofDescriptor hname
  simp only [List.mem_cons, List.not_mem_nil, or_false] at hc
  rcases hc with rfl | rfl | rfl
  · exact hslash rfl
  · exact hbracket rfl
  · have hend : ';' ∈ body := hin.resolve_left (by decide)
    exact not_mem_of_mem_inLine isBodyChar_end h hend

/-- The arguments of `LB<LI<TT;(`, whose bracket nothing closes, hold a reference that keeps the
bracket in front of a type variable. -/
theorem stands_type_variable :
    ['I', '<', 'T', 'T'] ∈ (inLine ['L', 'B', '<', 'L', 'I', '<', 'T', 'T', ';', '(']).keys ∧
      Stands ['I', '<', 'T', 'T'] ['L', 'B', '<', 'L', 'I', '<', 'T', 'T', ';', '('] ∧
      '<' ∉ Name.ofDescriptor ['I', '<', 'T', 'T'] := by
  have hread : ['I', '<', 'T', 'T']
      ∈ (inLine ['L', 'B', '<', 'L', 'I', '<', 'T', 'T', ';', '(']).keys :=
    List.contains_iff_mem.1 (by decide +kernel)
  obtain ⟨-, -, hstands, hname⟩ := stands_of_mem_inLine hread
  exact ⟨hread, hstands, hname '<' (by decide)⟩

end ClassGraph.Reference
