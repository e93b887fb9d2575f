/-
ClassGraph.Proofs.Reference.Delimited — a clearly delimited reference is
never lost.

`L` name `;` stands clear of what surrounds it when the body characters just
before its `L` hold no other `L`: no candidate that begins earlier can then
run into it. `mem_inLine_of_clear` says that such a reference is read,
whatever else the line holds, if the line has no more brackets than there
are levels.

The induction is over the steps of the reader. Its invariant is that the
text that is left still holds the occurrence whole, clear as before, and that
the level and the brackets that are left stay together within the bound: a
step to a deeper level takes a bracket with it.
-/
import ClassGraph.Proofs.Reference.Reads
import ClassGraph.Proofs.Text.Pieces

namespace ClassGraph.Reference

variable {bound : Option Nat} {depth : Nat} {name inside args rest pre post lead tail : Text}

/-! ## §1 The characters before a reference -/

/-- The body characters that a text ends with. -/
def bodyRun (s : Text) : Text := afterLast (fun c => !isBodyChar c) s

theorem bodyRun_append_of_body {s : Text} (h : ∀ c ∈ s, isBodyChar c = true) (t : Text) :
    bodyRun (t ++ s) = bodyRun t ++ s :=
  afterLast_append_of_forall (fun c hc => by simp [h c hc]) t

/-- Cutting off the front of a text shortens its run, if it changes it at all. -/
theorem mem_bodyRun_append {c : Char} {s t : Text} (h : c ∈ bodyRun s) :
    c ∈ bodyRun (t ++ s) := by
  simp only [bodyRun, afterLast, List.reverse_append, List.mem_reverse] at h ⊢
  rw [List.takeWhile_append]
  split
  · exact List.mem_append_left _ (List.takeWhile_subset _ h)
  · exact h

/-- `pre` leaves a reference that follows it clear. -/
def Clear (pre : Text) : Prop := 'L' ∉ bodyRun pre

theorem Clear.of_append {s t : Text} (h : Clear (t ++ s)) : Clear s := fun hm =>
  h (mem_bodyRun_append hm)

theorem Clear.of_append_cons {s t : Text} {c : Char} (h : Clear (t ++ c :: s)) : Clear s :=
  Clear.of_append (t := t ++ [c]) (by simpa using h)

/-- Body characters do not reach from an earlier `L` up to a clear reference. -/
theorem Clear.exists_break {s t : Text} (h : Clear (t ++ 'L' :: s)) :
    ∃ c ∈ s, isBodyChar c = false := by
  refine Classical.byContradiction fun hnone => h ?_
  have hall : ∀ c ∈ 'L' :: s, isBodyChar c = true := by
    intro c hc
    rcases List.mem_cons.1 hc with rfl | hc
    · decide
    · exact Bool.not_eq_false _ ▸ fun hf => hnone ⟨c, hc, hf⟩
  rw [bodyRun_append_of_body hall]
  exact List.mem_append_right _ (List.mem_cons_self ..)

/-! ## §2 What a step leaves of the text -/

theorem isBody_eq_false_of_mem {s : Text} {c : Char} (hc : c ∈ s) (hb : isBodyChar c = false) :
    isBody s = false := by
  cases h : isBody s with
  | false => rfl
  | true =>
    simp only [isBody, Bool.and_eq_true, List.all_eq_true] at h
    rw [h.2 c hc] at hb
    cases hb

/-- The bracket of a name that comes before a reference does, too. -/
theorem opens_before {name' : Text} (hname : isName name = true) (ho : Opens name' inside)
    (h : name' ++ '<' :: inside = tail ++ 'L' :: (name ++ ';' :: post)) :
    ∃ before, tail = name' ++ '<' :: before ∧ inside = before ++ 'L' :: (name ++ ';' :: post) := by
  have hend : ';' ∉ name' ++ ['<'] := by simp [ho.end_not_mem]
  have hlt : '<' ∉ 'L' :: name := not_mem_of_isName (by decide) (isName_cons hname)
  have hcut : (name' ++ ['<']) ++ inside = (tail ++ 'L' :: name) ++ ';' :: post := by
    simpa using h
  obtain ⟨w, hw, hinside⟩ := append_avoiding hend hcut
  obtain ⟨before, htail, hbefore⟩ := separator_in_left hlt (by simpa using hw)
  refine ⟨before, htail, ?_⟩
  rw [hinside, hbefore]
  simp

/-- A name with type arguments is no plain reference, so it begins before one. -/
theorem Opens.later {name' : Text} (ho : Opens name' inside) (hname : isName name = true)
    (hl : 'L' ∉ lead)
    (h : lead ++ 'L' :: (name' ++ '<' :: inside) = pre ++ 'L' :: (name ++ ';' :: post)) :
    ∃ w, pre = lead ++ 'L' :: w ∧ name' ++ '<' :: inside = w ++ 'L' :: (name ++ ';' :: post) := by
  rcases first_or_later hl h with ⟨-, he⟩ | hw
  · have hend : ';' ∉ name' ++ ['<'] := by simp [ho.end_not_mem]
    obtain ⟨w, hw, -⟩ := append_avoiding hend (v := inside) (by simpa using he)
    exact absurd (hw ▸ by simp) (not_mem_of_isName (c := '<') (by decide) hname)
  · exact hw

/-- A bracket closes before a reference, or behind it. -/
theorem closes_around (hname : isName name = true)
    (h : pre ++ 'L' :: (name ++ ';' :: post) = args ++ '>' :: rest) :
    (∃ w, pre = args ++ '>' :: w ∧ rest = w ++ 'L' :: (name ++ ';' :: post)) ∨
      ∃ w, args = pre ++ 'L' :: (name ++ ';' :: w) := by
  have hname' : '>' ∉ 'L' :: name := not_mem_of_isName (by decide) (isName_cons hname)
  have hgt : '>' ∉ 'L' :: (name ++ [';']) := by simpa using hname'
  have hcut : pre ++ ('L' :: (name ++ [';']) ++ post) = args ++ '>' :: rest := by simpa using h
  rcases separator_around hgt hcut with ⟨w, hpre, hrest⟩ | ⟨w, hargs, -⟩
  · exact .inl ⟨w, hpre, by simpa using hrest⟩
  · exact .inr ⟨w, by simpa using hargs⟩

/-! ## §3 No step loses the reference -/

theorem isRead_of_lt {b : Nat} (h : depth < b) : isRead (some b) depth = true := by
  simpa [isRead] using h

/-- Reading comes upon a clear reference as long as the brackets that are left lead no deeper than
the bound. -/
theorem Reads.mem_of_clear {b : Nat} {text : Text} {found : List Sighting}
    (h : Reads (some b) depth text found) (hname : isName name = true) {pre post : Text}
    (ht : text = pre ++ 'L' :: (name ++ ';' :: post)) (hclear : Clear pre)
    (hcount : depth + text.count '<' ≤ b) : .reference name ∈ found := by
  induction h generalizing pre post with
  | quiet hL => exact absurd (by simp [ht]) hL
  | unended hl hend =>
    rcases first_or_later hl ht with ⟨-, rfl⟩ | ⟨w, -, rfl⟩
    · exact absurd (by simp) hend
    · exact absurd (by simp) hend
  | word hl hbody hw _ ih =>
    rcases first_or_later hl ht with ⟨-, he⟩ | ⟨w, rfl, he⟩
    · rcases first_or_later hbody he with ⟨rfl, -⟩ | ⟨v, hv, -⟩
      · rw [isBody_of_isName hname] at hw
        cases hw
      · exact absurd (hv ▸ by simp) (not_mem_of_isName (c := ';') (by decide) hname)
    · refine ih he hclear.of_append_cons ?_
      simp only [List.count_append, List.count_cons] at hcount ⊢
      omega
  | @plain depth lead body rest found hl hb _ _ ih =>
    rcases first_or_later hl ht with ⟨-, he⟩ | ⟨w, rfl, he⟩
    · rcases first_or_later (end_not_mem_of_isBody hb) he with ⟨rfl, -⟩ | ⟨v, hv, -⟩
      · exact List.mem_cons_self ..
      · exact absurd (hv ▸ by simp) (not_mem_of_isName (c := ';') (by decide) hname)
    · -- the body ends before the reference: it cannot run up to it
      have hcut : body ++ ';' :: rest = (w ++ 'L' :: name) ++ ';' :: post := by simpa using he
      obtain ⟨c, hc, hcb⟩ := hclear.exists_break
      rcases first_or_later (end_not_mem_of_isBody hb) hcut with ⟨rfl, -⟩ | ⟨v, hv, hrest⟩
      · rw [isBody_eq_false_of_mem (List.mem_append_left _ hc) hcb] at hb
        cases hb
      · have hend : ';' ∉ 'L' :: name := not_mem_of_isName (by decide) (isName_cons hname)
        obtain ⟨u, rfl, rfl⟩ := separator_in_left hend hv
        have hleft : rest = u ++ 'L' :: (name ++ ';' :: post) := by simpa using hrest
        refine List.mem_cons_of_mem _ (ih hleft ?_ ?_)
        · exact (hclear.of_append_cons).of_append_cons
        · simp only [List.count_append, List.count_cons] at hcount ⊢
          omega
  | @closed depth lead name' inside args rest inner found hl ho hc _ _ _ ihIn ihOut =>
    obtain ⟨w, rfl, he⟩ := ho.later hname hl ht
    obtain ⟨before, rfl, rfl⟩ := opens_before hname ho he
    have hclear' : Clear before := hclear.of_append_cons.of_append_cons
    have hsplit := closing_eq_some hc
    rcases closes_around hname hsplit with ⟨v, rfl, rfl⟩ | ⟨v, rfl⟩
    · refine List.mem_append_right _ (ihOut rfl hclear'.of_append_cons ?_)
      simp only [List.count_append, List.count_cons] at hcount ⊢
      omega
    · -- the arguments hold the reference, and lie one level deeper with one bracket less
      rw [hsplit] at hcount
      simp only [List.count_append, List.count_cons] at hcount
      have hread : isRead (some b) depth = true := isRead_of_lt (by simp at hcount; omega)
      refine List.mem_append_left _ (List.mem_append_right _ (ihIn hread rfl hclear' ?_))
      simp only [List.count_append, List.count_cons] at hcount ⊢
      simp at hcount ⊢
      omega
  | @opened depth lead name' inside inner hl ho hc _ _ ihIn =>
    obtain ⟨w, rfl, he⟩ := ho.later hname hl ht
    obtain ⟨before, rfl, rfl⟩ := opens_before hname ho he
    simp only [List.count_append, List.count_cons] at hcount
    have hread : isRead (some b) depth = true := isRead_of_lt (by simp at hcount; omega)
    refine List.mem_append_right _ (ihIn hread rfl hclear.of_append_cons.of_append_cons ?_)
    simp only [List.count_append, List.count_cons]
    simp at hcount ⊢
    omega

/-- **No clearly delimited reference is lost**: in a line with no more brackets than there are
levels, `L` name `;` is read wherever no `L` stands among the body characters before it. -/
theorem mem_inLine_of_clear {pre name post : Text} (hname : isName name = true)
    (hclear : Clear pre)
    (hcount : (pre ++ 'L' :: (name ++ ';' :: post)).count '<' ≤ maxDepth) :
    name ∈ (inLine (pre ++ 'L' :: (name ++ ';' :: post))).keys := by
  rw [mem_inLine]
  exact (reads_scan (some maxDepth) 0 _).mem_of_clear hname rfl hclear (by omega)

/-- In `LB<LJ;[LI;)`, whose bracket is never closed, `LI;` is clear and is read. -/
theorem mem_inLine_behind_bracket :
    ['I'] ∈ (inLine ['L', 'B', '<', 'L', 'J', ';', '[', 'L', 'I', ';', ')']).keys := by
  have hclear : Clear ['L', 'B', '<', 'L', 'J', ';', '['] := by
    unfold Clear
    decide
  exact mem_inLine_of_clear (by decide : isName ['I'] = true) hclear
    (by decide : (['L', 'B', '<', 'L', 'J', ';', '['] ++ 'L' :: (['I'] ++ ';' :: [')'])).count '<'
      ≤ maxDepth)

end ClassGraph.Reference
