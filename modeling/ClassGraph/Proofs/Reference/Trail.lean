/-
ClassGraph.Proofs.Reference.Trail — reading one level, and how deep reading
goes.

Type arguments are read apart from the level that they stand on: where
reading goes on behind them is settled by the brackets of the text alone. So
the steps that reading takes on one level (`trail`) depend neither on the
level nor on the bound, which only decide whether what a step leaves to the
next level is read there: `scan_eq_flatMap_trail`. What a step leaves to the
next level lies behind a bracket that it takes away
(`exists_bracket_of_arguments`), so a text without more brackets than there
are levels left is read as if there were no bound: `scan_of_count_le`. The
main statement, `bound_only_cuts`, puts these together.
-/
import Mathlib.Data.List.Basic
import ClassGraph.Proofs.Reference.Reads

namespace ClassGraph.Reference

/-! ## §1 One step on a level -/

/-- A step of reading on one level. -/
structure Step where
  /-- The reference that the step comes upon, if it does. -/
  found : List Sighting
  /-- The type arguments that it leaves to the next level. -/
  arguments : Option Text
  /-- The text that is left on this level. -/
  rest : Text

variable {bound : Option Nat} {depth : Nat} {name inside args text : Text} {st : Step}

/-- The next step on a level, from the first `L` on that a `;` follows. -/
def step? (text : Text) : Option Step :=
  match text.dropWhile (· != 'L') with
  | [] => none
  | _ :: tail =>
    if ';' ∈ tail then
      let body := tail.takeWhile (· != ';')
      if isBody body then
        match argumentsOf? body with
        | none => some ⟨[.reference body], none, (tail.dropWhile (· != ';')).drop 1⟩
        | some name =>
          let inside := tail.drop (name.length + 1)
          match closing 0 inside with
          | some (args, rest) => some ⟨sighted name, some args, rest⟩
          | none => some ⟨sighted name, some inside, []⟩
      else some ⟨[], none, tail⟩
    else none

/-- What is sighted in a step that is taken `depth` levels deep. -/
def Step.sightings (bound : Option Nat) (depth : Nat) (st : Step) : List Sighting :=
  st.found ++ match st.arguments with
    | some args => inArguments bound depth args
    | none => []

/-- Reading is a step and then what the step leaves, whatever the level and the bound. -/
theorem scan_eq_step (bound : Option Nat) (depth : Nat) (text : Text) :
    scan bound depth text = match step? text with
      | some st => st.sightings bound depth ++ scan bound depth st.rest
      | none => [] := by
  by_cases hL : 'L' ∈ text
  · obtain ⟨lead, tail, rfl, hl⟩ := List.eq_append_cons_of_mem hL
    rw [scan_lead hl, step?, dropWhile_append_cons hl]
    by_cases hend : ';' ∈ tail
    · simp only [if_pos hend]
      split
      · split
        · simp [Step.sightings, *]
        · split
          · simp [Step.sightings, *]
          · simp [Step.sightings, scan_quiet, *]
      · simp [Step.sightings]
    · simp only [if_neg hend]
  · rw [scan_quiet hL, step?, dropWhile_of_not_mem hL]

/-! ## §2 What a step takes away -/

/-- A step takes some text away, and what it leaves to the next level stood there behind a
bracket. -/
structure Step.Takes (st : Step) (text : Text) : Prop where
  some_text : ∃ before, before ≠ [] ∧ text = before ++ st.rest
  bracket : ∀ args, st.arguments = some args →
    ∃ before behind, text = before ++ '<' :: (args ++ behind)

theorem takes_of_step? (h : step? text = some st) : st.Takes text := by
  by_cases hL : 'L' ∈ text
  · obtain ⟨lead, tail, rfl, hl⟩ := List.eq_append_cons_of_mem hL
    rw [step?, dropWhile_append_cons hl] at h
    by_cases hend : ';' ∈ tail
    · simp only [if_pos hend] at h
      cases hb : isBody (tail.takeWhile (· != ';')) with
      | false =>
        rw [hb] at h
        cases h
        exact ⟨⟨lead ++ ['L'], by simp, by simp⟩, by simp⟩
      | true =>
        simp only [hb, if_true] at h
        cases ha : argumentsOf? (tail.takeWhile (· != ';')) with
        | none =>
          obtain ⟨body, rest, rfl, hbody⟩ := List.eq_append_cons_of_mem hend
          rw [ha, dropWhile_append_cons hbody] at h
          cases h
          exact ⟨⟨lead ++ 'L' :: (body ++ [';']), by simp, by simp⟩, by simp⟩
        | some name =>
          obtain ⟨inside, rfl, ho⟩ := opens_of_argumentsOf? hend hb ha
          simp only [ha, drop_name] at h
          cases hc : closing 0 inside with
          | none =>
            rw [hc] at h
            cases h
            refine ⟨⟨lead ++ 'L' :: (name ++ '<' :: inside), by simp, by simp⟩, ?_⟩
            intro args ha
            cases ha
            exact ⟨lead ++ 'L' :: name, [], by simp⟩
          | some p =>
            obtain ⟨args, rest⟩ := p
            rw [hc] at h
            cases h
            rw [closing_eq_some hc]
            refine ⟨⟨lead ++ 'L' :: (name ++ '<' :: (args ++ ['>'])), by simp, by simp⟩, ?_⟩
            intro args ha
            cases ha
            exact ⟨lead ++ 'L' :: name, '>' :: rest, by simp⟩
    · simp only [if_neg hend] at h
      cases h
  · rw [step?, dropWhile_of_not_mem hL] at h
    cases h

theorem length_rest_lt (h : step? text = some st) : st.rest.length < text.length := by
  obtain ⟨before, hbefore, htext⟩ := (takes_of_step? h).some_text
  have hpos := List.length_pos_iff.2 hbefore
  rw [htext, List.length_append]
  omega

/-! ## §3 The steps of a level -/

/-- The steps of reading a text on one level. -/
def trail (text : Text) : List Step :=
  match h : step? text with
  | some st =>
    have := length_rest_lt h
    st :: trail st.rest
  | none => []
termination_by text.length

/-- What reading comes upon is what it comes upon in the steps of the level, one after another,
and neither the level nor the bound changes the steps. -/
theorem scan_eq_flatMap_trail (bound : Option Nat) (depth : Nat) (text : Text) :
    scan bound depth text = (trail text).flatMap (Step.sightings bound depth) := by
  fun_induction trail text with
  | case1 text st hstep _ ih => rw [scan_eq_step, hstep, List.flatMap_cons, ← ih]
  | case2 text hstep => rw [scan_eq_step, hstep, List.flatMap_nil]

theorem exists_step_of_mem_trail (h : st ∈ trail text) :
    ∃ left, left <:+ text ∧ step? left = some st := by
  fun_induction trail text with
  | case1 text first hstep _ ih =>
    rcases List.mem_cons.1 h with rfl | h
    · exact ⟨text, List.suffix_refl text, hstep⟩
    · obtain ⟨left, hleft, hst⟩ := ih h
      obtain ⟨before, -, htext⟩ := (takes_of_step? hstep).some_text
      exact ⟨left, hleft.trans ⟨before, htext.symm⟩, hst⟩
  | case2 => cases h

/-- Type arguments stand in the text behind a bracket. -/
theorem exists_bracket_of_arguments (h : st ∈ trail text) (ha : st.arguments = some args) :
    ∃ before behind, text = before ++ '<' :: (args ++ behind) := by
  obtain ⟨left, ⟨gone, rfl⟩, hst⟩ := exists_step_of_mem_trail h
  obtain ⟨before, behind, rfl⟩ := (takes_of_step? hst).bracket args ha
  exact ⟨gone ++ before, behind, by simp⟩

theorem length_arguments_lt (h : st ∈ trail text) (ha : st.arguments = some args) :
    args.length < text.length := by
  obtain ⟨before, behind, rfl⟩ := exists_bracket_of_arguments h ha
  simp only [List.length_append, List.length_cons]
  omega

theorem count_arguments_lt (h : st ∈ trail text) (ha : st.arguments = some args) :
    args.count '<' < text.count '<' := by
  obtain ⟨before, behind, rfl⟩ := exists_bracket_of_arguments h ha
  simp only [List.count_append, List.count_cons_self]
  omega

/-! ## §4 Under a bound -/

/-- What is read under a bound is read without one. -/
theorem mem_scan_none {body : Text} (depth : Nat) (text : Text)
    (h : .reference body ∈ scan bound depth text) : .reference body ∈ scan none depth text := by
  rw [scan_eq_flatMap_trail] at h ⊢
  obtain ⟨st, hst, hbody⟩ := List.mem_flatMap.1 h
  refine List.mem_flatMap.2 ⟨st, hst, ?_⟩
  rcases List.mem_append.1 hbody with hfound | hargs
  · exact List.mem_append_left _ hfound
  · refine List.mem_append_right _ ?_
    cases ha : st.arguments with
    | none =>
      rw [ha] at hargs
      cases hargs
    | some args =>
      simp only [ha] at hargs
      have hread := isRead_of_mem inArguments_of_deep hargs
      rw [inArguments_of_read hread] at hargs
      have := length_arguments_lt hst ha
      exact mem_scan_none (depth + 1) args hargs
termination_by text.length

/-- As long as the brackets of a text lead no deeper than the bound, the bound changes nothing. -/
theorem scan_of_count_le {b : Nat} (depth : Nat) (text : Text)
    (h : depth + text.count '<' ≤ b) : scan (some b) depth text = scan none depth text := by
  rw [scan_eq_flatMap_trail, scan_eq_flatMap_trail]
  refine List.flatMap_congr fun st hst => ?_
  unfold Step.sightings
  cases ha : st.arguments with
  | none => rfl
  | some args =>
    have hcount := count_arguments_lt hst ha
    have hlength := length_arguments_lt hst ha
    have hread : isRead (some b) depth = true := decide_eq_true (by omega)
    have hargs : scan (some b) (depth + 1) args = scan none (depth + 1) args :=
      scan_of_count_le (depth + 1) args (by omega)
    simp only [inArguments_of_read hread, hargs]
    rfl
termination_by text.length

/-- The distinct references of a line under a bound, by their bodies. -/
def inLineUpTo (bound : Option Nat) (line : Text) : NameSet :=
  NameSet.ofList ((scan bound 0 line).filterMap Sighting.body?)

/-- **The bound only ever cuts**: every reference of a line is one without a bound as well, and in
a line with no more brackets than there are levels, they are the same. On every level reading
takes the same steps, whatever the bound, and goes on behind each of them with the same text. -/
theorem bound_only_cuts (line : Text) :
    (∀ body ∈ (inLine line).keys, body ∈ (inLineUpTo none line).keys) ∧
      (line.count '<' ≤ maxDepth → inLine line = inLineUpTo none line) ∧
      (∀ bound depth,
        scan bound depth line = (trail line).flatMap (Step.sightings bound depth)) ∧
      ∀ st ∈ trail line, ∃ left, left <:+ line ∧ ∀ bound depth,
        scan bound depth left = st.sightings bound depth ++ scan bound depth st.rest := by
  refine ⟨fun body hbody => ?_, fun hcount => ?_, fun bound depth => ?_, fun st hst => ?_⟩
  · exact mem_bodies.2 (mem_scan_none 0 line (mem_inLine.1 hbody))
  · rw [inLine, sightings, scan_of_count_le 0 line (by omega), inLineUpTo]
  · exact scan_eq_flatMap_trail bound depth line
  · obtain ⟨left, hleft, hstep⟩ := exists_step_of_mem_trail hst
    refine ⟨left, hleft, fun bound depth => ?_⟩
    rw [scan_eq_step, hstep]

/-- `LB<LI;>LK;` has one bracket: all of it is read, and behind the arguments reading goes on with
`LK;` wherever it stands and whatever is read. -/
theorem bound_only_cuts_one_bracket :
    ['I'] ∈ (inLineUpTo none ['L', 'B', '<', 'L', 'I', ';', '>', 'L', 'K', ';']).keys ∧
      inLine ['L', 'B', '<', 'L', 'I', ';', '>', 'L', 'K', ';']
        = inLineUpTo none ['L', 'B', '<', 'L', 'I', ';', '>', 'L', 'K', ';'] ∧
      scan (some 0) 0 ['L', 'B', '<', 'L', 'I', ';', '>', 'L', 'K', ';']
        = [.reference ['B'], .tooDeep 0, .reference ['K']] := by
  obtain ⟨hsubset, hsame, htrail, -⟩ :=
    bound_only_cuts ['L', 'B', '<', 'L', 'I', ';', '>', 'L', 'K', ';']
  have hread : ['I'] ∈ (inLine ['L', 'B', '<', 'L', 'I', ';', '>', 'L', 'K', ';']).keys :=
    List.contains_iff_mem.1 (by decide +kernel)
  refine ⟨hsubset _ hread, hsame (by decide), ?_⟩
  rw [htrail]
  decide +kernel

end ClassGraph.Reference
