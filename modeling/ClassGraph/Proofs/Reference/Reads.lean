/-
ClassGraph.Proofs.Reference.Reads — what one step of the reader can do.

`scan` is defined on the text that is left. Here each of its branches is
given twice: as an equation that runs it on a text of known shape
(`scan_word`, `scan_plain`, `scan_closed`, …), and as a rule of the relation
`Reads`, whose induction is the one that facts about every text go by. The
main statements:

  * `reads_scan`    — every text is read by the rules;
  * `argumentsOf?_eq_some` — when a body opens type arguments, and where.
-/
import ClassGraph.Reference
import ClassGraph.Proofs.Text.Occurrence

namespace ClassGraph.Reference

variable {bound : Option Nat} {depth : Nat} {lead tail body name inside args rest text : Text}

/-! ## §1 Bodies that open type arguments -/

theorem isBodyChar_end : isBodyChar ';' = false := by decide

theorem end_not_mem_of_isBody (h : isBody body = true) : ';' ∉ body := by
  simp only [isBody, Bool.and_eq_true, List.all_eq_true] at h
  intro hm
  have hc := h.2 ';' hm
  rw [isBodyChar_end] at hc
  cases hc

/-- The first bracket of a body opens arguments when another `L` follows it. -/
theorem argumentsOf?_eq_some :
    argumentsOf? body = some name ↔ '<' ∉ name ∧ ∃ s, body = name ++ '<' :: 'L' :: s := by
  constructor
  · intro h
    by_cases hm : '<' ∈ body
    · obtain ⟨u, v, rfl, hu⟩ := List.eq_append_cons_of_mem hm
      rw [argumentsOf?, dropWhile_append_cons hu, takeWhile_append_cons hu] at h
      split at h
      · next s hs =>
        obtain ⟨-, rfl⟩ := List.cons_eq_cons.1 hs
        cases h
        exact ⟨hu, s, rfl⟩
      · cases h
    · rw [argumentsOf?, dropWhile_of_not_mem hm] at h
      cases h
  · rintro ⟨hn, s, rfl⟩
    rw [argumentsOf?, dropWhile_append_cons hn, takeWhile_append_cons hn]
    rfl

/-- A name is followed by type arguments, read up to the first `;`. -/
structure Opens (name inside : Text) : Prop where
  avoids : '<' ∉ name
  begins : ∃ s, inside = 'L' :: s
  ends : ';' ∈ inside
  isBody : isBody (name ++ '<' :: inside.takeWhile (· != ';')) = true

theorem Opens.end_not_mem (h : Opens name inside) : ';' ∉ name := fun hm =>
  end_not_mem_of_isBody h.isBody (List.mem_append_left _ hm)

theorem Opens.takeWhile (h : Opens name inside) :
    (name ++ '<' :: inside).takeWhile (· != ';') = name ++ '<' :: inside.takeWhile (· != ';') := by
  rw [List.takeWhile_append_of_pos (ne_of_avoiding h.end_not_mem)]
  simp

theorem Opens.argumentsOf? (h : Opens name inside) :
    argumentsOf? (name ++ '<' :: inside.takeWhile (· != ';')) = some name := by
  obtain ⟨s, rfl⟩ := h.begins
  exact argumentsOf?_eq_some.2 ⟨h.avoids, s.takeWhile (· != ';'), by simp⟩

theorem opens_of_argumentsOf? (hend : ';' ∈ tail) (hb : isBody (tail.takeWhile (· != ';')) = true)
    (ha : argumentsOf? (tail.takeWhile (· != ';')) = some name) :
    ∃ inside, tail = name ++ '<' :: inside ∧ Opens name inside := by
  obtain ⟨body, rest, rfl, hbody⟩ := List.eq_append_cons_of_mem hend
  rw [takeWhile_append_cons hbody] at hb ha
  obtain ⟨hn, s, rfl⟩ := argumentsOf?_eq_some.1 ha
  have hs : ';' ∉ 'L' :: s := fun hm =>
    hbody (List.mem_append_right _ (List.mem_cons_of_mem _ hm))
  refine ⟨'L' :: s ++ ';' :: rest, by simp, hn, ⟨s ++ ';' :: rest, by simp⟩, by simp, ?_⟩
  rw [takeWhile_append_cons hs]
  exact hb

/-- The text inside a bracket follows the name and the bracket. -/
theorem drop_name (name inside : Text) :
    (name ++ '<' :: inside).drop (name.length + 1) = inside := by
  rw [← List.drop_drop, List.drop_left]
  rfl

/-! ## §2 Names -/

/-- Whether a character may stand in a name, where type arguments have no part in it. -/
def isNameChar (c : Char) : Bool := c.isAlphanum || c == '_' || c == '/' || c == '$'

/-- Whether a text is a name: not empty, and without brackets. -/
def isName (s : Text) : Bool := !s.isEmpty && s.all isNameChar

theorem isBodyChar_of_isNameChar {c : Char} (h : isNameChar c = true) : isBodyChar c = true := by
  simp only [isNameChar, isBodyChar, Bool.or_eq_true] at h ⊢
  exact .inl (.inl h)

theorem isNameChar_of_mem {c : Char} (h : isName name = true) (hc : c ∈ name) :
    isNameChar c = true := by
  simp only [isName, Bool.and_eq_true, List.all_eq_true] at h
  exact h.2 c hc

theorem not_mem_of_isName {c : Char} (hc : isNameChar c = false) (h : isName name = true) :
    c ∉ name := by
  intro hm
  rw [isNameChar_of_mem h hm] at hc
  cases hc

theorem ne_nil_of_isName (h : isName name = true) : name ≠ [] := by
  simp only [isName, Bool.and_eq_true, Bool.not_eq_true', List.isEmpty_eq_false_iff] at h
  exact h.1

/-- The mark in front of a name may itself stand in a name. -/
theorem isName_cons (h : isName name = true) : isName ('L' :: name) = true := by
  simp only [isName, Bool.and_eq_true] at h ⊢
  exact ⟨rfl, List.all_cons.trans (by rw [h.2]; rfl)⟩

theorem isBodyChar_of_mem {c : Char} (h : isName name = true) (hc : c ∈ name) :
    isBodyChar c = true :=
  isBodyChar_of_isNameChar (isNameChar_of_mem h hc)

theorem isBody_of_isName (h : isName name = true) : isBody name = true := by
  simp only [isBody, Bool.and_eq_true, Bool.not_eq_true', List.isEmpty_eq_false_iff,
    List.all_eq_true]
  exact ⟨ne_nil_of_isName h, fun c hc => isBodyChar_of_mem h hc⟩

theorem argumentsOf?_of_isName (h : isName name = true) : argumentsOf? name = none := by
  have hn : '<' ∉ name := not_mem_of_isName (by decide) h
  rw [argumentsOf?, dropWhile_of_not_mem hn]

/-! ## §3 One step -/

/-- What a name before type arguments is sighted as. -/
def sighted (name : Text) : List Sighting := if name.isEmpty then [] else [.reference name]

/-- What is sighted in the type arguments of a name on the level `depth`. -/
def inArguments (bound : Option Nat) (depth : Nat) (args : Text) : List Sighting :=
  if isRead bound depth then scan bound (depth + 1) args else [.tooDeep depth]

theorem scan_quiet (h : 'L' ∉ text) : scan bound depth text = [] := by
  rw [scan]
  split
  · rfl
  · next hd =>
    rw [dropWhile_of_not_mem h] at hd
    cases hd

/-- One step from the first `L` on. -/
theorem scan_lead (hl : 'L' ∉ lead) :
    scan bound depth (lead ++ 'L' :: tail) =
      if ';' ∈ tail then
        if isBody (tail.takeWhile (· != ';')) then
          match argumentsOf? (tail.takeWhile (· != ';')) with
          | none =>
            .reference (tail.takeWhile (· != ';'))
              :: scan bound depth ((tail.dropWhile (· != ';')).drop 1)
          | some name =>
            match closing 0 (tail.drop (name.length + 1)) with
            | some (args, rest) =>
              sighted name ++ inArguments bound depth args ++ scan bound depth rest
            | none => sighted name ++ inArguments bound depth (tail.drop (name.length + 1))
        else scan bound depth tail
      else [] := by
  rw [scan]
  split
  · next hd =>
    rw [dropWhile_append_cons hl] at hd
    cases hd
  · next hd =>
    rw [dropWhile_append_cons hl] at hd
    cases hd
    simp only [sighted, inArguments]
    by_cases hend : ';' ∈ tail
    · rw [if_pos hend, if_pos hend]
      split
      · cases argumentsOf? (tail.takeWhile (· != ';')) with
        | none => simp
        | some name =>
          simp only
          cases closing 0 (tail.drop (name.length + 1)) <;> simp
      · rfl
    · rw [if_neg hend, if_neg hend]

/-- Text before the first `L` is passed over. -/
theorem scan_lead_append (hl : 'L' ∉ lead) :
    scan bound depth (lead ++ text) = scan bound depth text := by
  by_cases ht : 'L' ∈ text
  · obtain ⟨u, v, rfl, hu⟩ := List.eq_append_cons_of_mem ht
    have hlu : 'L' ∉ lead ++ u := by simp [hl, hu]
    rw [← List.append_assoc, scan_lead hlu, scan_lead hu]
  · rw [scan_quiet ht, scan_quiet (by simp [hl, ht])]

theorem scan_unended (hl : 'L' ∉ lead) (ht : ';' ∉ tail) :
    scan bound depth (lead ++ 'L' :: tail) = [] := by
  rw [scan_lead hl, if_neg ht]

/-- A word that merely holds an `L` is left at that letter. -/
theorem scan_word (hl : 'L' ∉ lead) (hb : ';' ∉ body) (hw : isBody body = false) :
    scan bound depth (lead ++ 'L' :: (body ++ ';' :: rest))
      = scan bound depth (body ++ ';' :: rest) := by
  rw [scan_lead hl, if_pos (by simp), takeWhile_append_cons hb, hw]
  simp

theorem scan_plain (hl : 'L' ∉ lead) (hb : isBody body = true) (ha : argumentsOf? body = none) :
    scan bound depth (lead ++ 'L' :: (body ++ ';' :: rest))
      = .reference body :: scan bound depth rest := by
  have hend := end_not_mem_of_isBody hb
  rw [scan_lead hl, if_pos (by simp), takeWhile_append_cons hend, hb, ha,
    dropWhile_append_cons hend]
  simp

theorem scan_opens (hl : 'L' ∉ lead) (ho : Opens name inside) :
    scan bound depth (lead ++ 'L' :: (name ++ '<' :: inside)) =
      match closing 0 inside with
      | some (args, rest) => sighted name ++ inArguments bound depth args ++ scan bound depth rest
      | none => sighted name ++ inArguments bound depth inside := by
  have hmem : ';' ∈ name ++ '<' :: inside := by simp [ho.ends]
  rw [scan_lead hl, if_pos hmem, ho.takeWhile, ho.isBody, ho.argumentsOf?]
  simp only [if_true, drop_name]

theorem scan_closed (hl : 'L' ∉ lead) (ho : Opens name inside)
    (hc : closing 0 inside = some (args, rest)) :
    scan bound depth (lead ++ 'L' :: (name ++ '<' :: inside))
      = sighted name ++ inArguments bound depth args ++ scan bound depth rest := by
  rw [scan_opens hl ho, hc]

theorem scan_open (hl : 'L' ∉ lead) (ho : Opens name inside) (hc : closing 0 inside = none) :
    scan bound depth (lead ++ 'L' :: (name ++ '<' :: inside))
      = sighted name ++ inArguments bound depth inside := by
  rw [scan_opens hl ho, hc]

/-! ## §4 All steps -/

/-- `Reads bound depth text found`: on the level `depth`, reading `text` comes upon `found`. There
is one rule for each way in which a step can go. -/
inductive Reads (bound : Option Nat) : Nat → Text → List Sighting → Prop where
  /-- No letter begins a reference. -/
  | quiet {depth : Nat} {text : Text} : 'L' ∉ text → Reads bound depth text []
  /-- Nothing ends what the first `L` begins. -/
  | unended {depth : Nat} {lead tail : Text} :
      'L' ∉ lead → ';' ∉ tail → Reads bound depth (lead ++ 'L' :: tail) []
  /-- What follows the first `L` is no body, so reading goes on behind that letter. -/
  | word {depth : Nat} {lead body rest : Text} {found : List Sighting} :
      'L' ∉ lead → ';' ∉ body → isBody body = false →
      Reads bound depth (body ++ ';' :: rest) found →
      Reads bound depth (lead ++ 'L' :: (body ++ ';' :: rest)) found
  /-- A reference without type arguments. -/
  | plain {depth : Nat} {lead body rest : Text} {found : List Sighting} :
      'L' ∉ lead → isBody body = true → argumentsOf? body = none →
      Reads bound depth rest found →
      Reads bound depth (lead ++ 'L' :: (body ++ ';' :: rest)) (.reference body :: found)
  /-- A name with type arguments whose bracket is closed. -/
  | closed {depth : Nat} {lead name inside args rest : Text} {inner found : List Sighting} :
      'L' ∉ lead → Opens name inside → closing 0 inside = some (args, rest) →
      (isRead bound depth = false → inner = [.tooDeep depth]) →
      (isRead bound depth = true → Reads bound (depth + 1) args inner) →
      Reads bound depth rest found →
      Reads bound depth (lead ++ 'L' :: (name ++ '<' :: inside)) (sighted name ++ inner ++ found)
  /-- A name with type arguments whose bracket is left open: they take all that is left. -/
  | opened {depth : Nat} {lead name inside : Text} {inner : List Sighting} :
      'L' ∉ lead → Opens name inside → closing 0 inside = none →
      (isRead bound depth = false → inner = [.tooDeep depth]) →
      (isRead bound depth = true → Reads bound (depth + 1) inside inner) →
      Reads bound depth (lead ++ 'L' :: (name ++ '<' :: inside)) (sighted name ++ inner)

theorem inArguments_of_deep (h : isRead bound depth = false) :
    inArguments bound depth args = [.tooDeep depth] := by
  simp [inArguments, h]

theorem inArguments_of_read (h : isRead bound depth = true) :
    inArguments bound depth args = scan bound (depth + 1) args := by
  simp [inArguments, h]

/-- Every text is read by the rules. -/
theorem reads_scan (bound : Option Nat) (depth : Nat) (text : Text) :
    Reads bound depth text (scan bound depth text) := by
  by_cases hL : 'L' ∈ text
  · obtain ⟨lead, tail, rfl, hl⟩ := List.eq_append_cons_of_mem hL
    by_cases hend : ';' ∈ tail
    · cases hb : isBody (tail.takeWhile (· != ';')) with
      | false =>
        obtain ⟨body, rest, rfl, hbody⟩ := List.eq_append_cons_of_mem hend
        rw [takeWhile_append_cons hbody] at hb
        rw [scan_word hl hbody hb]
        exact .word hl hbody hb (reads_scan bound depth _)
      | true =>
        cases ha : argumentsOf? (tail.takeWhile (· != ';')) with
        | none =>
          obtain ⟨body, rest, rfl, hbody⟩ := List.eq_append_cons_of_mem hend
          rw [takeWhile_append_cons hbody] at hb ha
          rw [scan_plain hl hb ha]
          exact .plain hl hb ha (reads_scan bound depth rest)
        | some name =>
          obtain ⟨inside, rfl, ho⟩ := opens_of_argumentsOf? hend hb ha
          cases hc : closing 0 inside with
          | none =>
            rw [scan_open hl ho hc]
            refine .opened hl ho hc inArguments_of_deep fun hr => ?_
            rw [inArguments_of_read hr]
            exact reads_scan bound (depth + 1) inside
          | some p =>
            obtain ⟨args, rest⟩ := p
            have := closing_length hc
            rw [scan_closed hl ho hc]
            refine .closed hl ho hc inArguments_of_deep (fun hr => ?_) (reads_scan bound depth rest)
            rw [inArguments_of_read hr]
            exact reads_scan bound (depth + 1) args
    · rw [scan_unended hl hend]
      exact .unended hl hend
  · rw [scan_quiet hL]
    exact .quiet hL
termination_by text.length
decreasing_by all_goals subst_vars; simp only [List.length_append, List.length_cons]; omega

/-! ## §5 The references of a line -/

/-- The bodies of what is sighted are those of its references. -/
theorem mem_bodies {found : List Sighting} :
    body ∈ (NameSet.ofList (found.filterMap Sighting.body?)).keys ↔ .reference body ∈ found := by
  rw [NameSet.mem_keys_ofList, List.mem_filterMap]
  constructor
  · rintro ⟨sighting, hm, hb⟩
    cases sighting with
    | reference body' =>
      cases hb
      exact hm
    | tooDeep depth => cases hb
  · intro hm
    exact ⟨.reference body, hm, rfl⟩

theorem mem_inLine {line : Text} :
    body ∈ (inLine line).keys ↔ .reference body ∈ sightings line := mem_bodies

theorem reference_mem_sighted {name' : Text} :
    Sighting.reference name' ∈ sighted name ↔ name' = name ∧ name ≠ [] := by
  unfold sighted
  split
  · next h => simp [List.isEmpty_iff.1 h]
  · next h =>
    have hne : name ≠ [] := by simpa using h
    simp [hne]

theorem isBody_of_sighted {name' : Text} (ho : Opens name inside)
    (h : Sighting.reference name' ∈ sighted name) : isBody name' = true := by
  obtain ⟨rfl, hne⟩ := reference_mem_sighted.1 h
  have hwhole := ho.isBody
  simp only [isBody, Bool.and_eq_true, Bool.not_eq_true', List.isEmpty_eq_false_iff,
    List.all_append] at hwhole ⊢
  exact ⟨hne, hwhole.2.1⟩

/-- References stand in arguments only where these are read. -/
theorem isRead_of_mem {inner : List Sighting}
    (hdeep : isRead bound depth = false → inner = [.tooDeep depth])
    (hb : .reference body ∈ inner) : isRead bound depth = true := by
  cases hr : isRead bound depth with
  | true => rfl
  | false =>
    rw [hdeep hr, List.mem_singleton] at hb
    cases hb

/-- Reading comes upon bodies only. -/
theorem isBody_of_reads {found : List Sighting} (h : Reads bound depth text found)
    (hb : .reference body ∈ found) : isBody body = true := by
  induction h with
  | quiet => cases hb
  | unended => cases hb
  | word _ _ _ _ ih => exact ih hb
  | plain _ hbody _ _ ih =>
    rcases List.mem_cons.1 hb with he | hb
    · cases he
      exact hbody
    · exact ih hb
  | closed _ ho _ hdeep _ _ ihInner ih =>
    rcases List.mem_append.1 hb with hb | hb
    · rcases List.mem_append.1 hb with hb | hb
      · exact isBody_of_sighted ho hb
      · exact ihInner (isRead_of_mem hdeep hb) hb
    · exact ih hb
  | opened _ ho _ hdeep _ ihInner =>
    rcases List.mem_append.1 hb with hb | hb
    · exact isBody_of_sighted ho hb
    · exact ihInner (isRead_of_mem hdeep hb) hb

theorem isBody_of_mem_inLine {line : Text} (h : body ∈ (inLine line).keys) : isBody body = true :=
  isBody_of_reads (reads_scan (some maxDepth) 0 line) (mem_inLine.1 h)

theorem not_mem_of_mem_inLine {line : Text} {c : Char} (hc : isBodyChar c = false)
    (h : body ∈ (inLine line).keys) : c ∉ body := by
  intro hm
  have hbody := isBody_of_mem_inLine h
  simp only [isBody, Bool.and_eq_true, List.all_eq_true] at hbody
  rw [hbody.2 c hm] at hc
  cases hc

end ClassGraph.Reference
