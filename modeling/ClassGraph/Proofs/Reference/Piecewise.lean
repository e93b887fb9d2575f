/-
ClassGraph.Proofs.Reference.Piecewise — a line without type arguments, piece
by piece.

Where no `<` stands in a line, each `;` ends a piece of it, and what is read
from a piece depends on that piece alone: of the plain characters that it
ends with, what follows the first `L`. The reader works otherwise. It goes
from `L` to `L`, over the ends of pieces, and tries what reaches up to the
next `;`; an `L` that is tried in vain is one with something else between it
and the end of its piece, or with nothing (`inPiece?_of_word`). The main
statements:

  * `sightings_eq_inPieces` — the reader comes upon the references of the
                              pieces, in their order;
  * `inLine_eq_inPieces`    — the references of a line are those of its
                              pieces.
-/
import ClassGraph.Proofs.Reference.Reads
import ClassGraph.Proofs.Text.Pieces

namespace ClassGraph.Reference

variable {bound : Option Nat} {depth : Nat} {body lead last piece rest run text : Text}

/-! ## §1 The characters that a piece ends with -/

/-- Whether a character may stand in the body of a reference that opens no type arguments. -/
def isPlainChar (c : Char) : Bool := isNameChar c || c == '>'

/-- The plain characters that a piece ends with. -/
def plainRun (piece : Text) : Text := afterLast (fun c => !isPlainChar c) piece

/-- `run` is the longest text of plain characters that `piece` ends with. -/
structure IsLastRun (run piece : Text) : Prop where
  ends : run <:+ piece
  plain : ∀ c ∈ run, isPlainChar c = true
  longest : ∀ s, s <:+ piece → (∀ c ∈ s, isPlainChar c = true) → s <:+ run

theorem plainRun_append_of_plain (h : ∀ c ∈ body, isPlainChar c = true) (s : Text) :
    plainRun (s ++ body) = plainRun s ++ body :=
  afterLast_append_of_forall (fun c hc => by simp [h c hc]) s

/-- A character that is not plain hides what comes before it. -/
theorem plainRun_append_of_mem {c : Char} (hc : c ∈ body) (hplain : isPlainChar c = false)
    (s : Text) : plainRun (s ++ body) = plainRun body :=
  afterLast_append (List.any_eq_true.2 ⟨c, hc, by simp [hplain]⟩) s

theorem isLastRun_plainRun (piece : Text) : IsLastRun (plainRun piece) piece where
  ends := by
    have hprefix := List.takeWhile_prefix (fun c => !!isPlainChar c) (l := piece.reverse)
    have hsuffix := List.reverse_suffix.2 hprefix
    rwa [List.reverse_reverse] at hsuffix
  plain := fun c hc => by simpa using not_of_mem_afterLast hc
  longest := by
    rintro s ⟨before, rfl⟩ hs
    rw [plainRun_append_of_plain hs]
    exact List.suffix_append ..

theorem isLastRun_iff : IsLastRun run piece ↔ run = plainRun piece := by
  constructor
  · intro h
    have hrun := isLastRun_plainRun piece
    exact (hrun.longest run h.ends h.plain).eq_of_length_le
      (h.longest _ hrun.ends hrun.plain).length_le
  · rintro rfl
    exact isLastRun_plainRun piece

theorem mem_of_mem_plainRun {c : Char} (h : c ∈ plainRun piece) : c ∈ piece :=
  (isLastRun_plainRun piece).ends.subset h

/-! ## §2 The reference of a piece -/

/-- The reference that a piece of a line holds: what follows the first `L` of the plain characters
that it ends with, if anything does. -/
def inPiece? (piece : Text) : Option Text :=
  match (plainRun piece).dropWhile (· != 'L') with
  | _ :: c :: s => some (c :: s)
  | _ => none

theorem inPiece?_of_lead (hl : 'L' ∉ lead) (hrun : plainRun piece = lead ++ 'L' :: body) :
    inPiece? piece = if body = [] then none else some body := by
  rw [inPiece?, hrun, dropWhile_append_cons hl]
  cases body with
  | nil => rfl
  | cons c s => rfl

theorem inPiece?_of_not_mem (h : 'L' ∉ plainRun piece) : inPiece? piece = none := by
  rw [inPiece?, dropWhile_of_not_mem h]

theorem inPiece?_eq_some : inPiece? piece = some body ↔
    ∃ lead, IsLastRun (lead ++ 'L' :: body) piece ∧ 'L' ∉ lead ∧ body ≠ [] := by
  simp only [isLastRun_iff]
  constructor
  · intro h
    by_cases hL : 'L' ∈ plainRun piece
    · obtain ⟨lead, s, hrun, hl⟩ := List.eq_append_cons_of_mem hL
      rw [inPiece?_of_lead hl hrun] at h
      split at h
      · cases h
      · next hne =>
        cases h
        exact ⟨lead, hrun.symm, hl, hne⟩
    · rw [inPiece?_of_not_mem hL] at h
      cases h
  · rintro ⟨lead, hrun, hl, hne⟩
    rw [inPiece?_of_lead hl hrun.symm, if_neg hne]

/-- The first `L` of a piece leads to its reference, where only plain characters follow. -/
theorem inPiece?_of_plain (hlast : 'L' ∉ last) (hbody : ∀ c ∈ body, isPlainChar c = true)
    (hne : body ≠ []) : inPiece? (last ++ 'L' :: body) = some body := by
  have hall : ∀ c ∈ 'L' :: body, isPlainChar c = true :=
    List.forall_mem_cons.2 ⟨by decide, hbody⟩
  have hlead : 'L' ∉ plainRun last := fun h => hlast (mem_of_mem_plainRun h)
  rw [inPiece?_of_lead hlead (plainRun_append_of_plain hall last), if_neg hne]

theorem isBodyChar_of_isPlainChar {c : Char} (h : isPlainChar c = true) : isBodyChar c = true := by
  simp only [isPlainChar, Bool.or_eq_true] at h
  rcases h with h | h
  · exact isBodyChar_of_isNameChar h
  · rw [eq_of_beq h]
    decide

theorem isPlainChar_of_isBodyChar {c : Char} (h : isBodyChar c = true) (hc : c ≠ '<') :
    isPlainChar c = true := by
  simpa [isBodyChar, isPlainChar, isNameChar, hc] using h

/-- An `L` that no body follows up to the end of the piece has no part in its reference. -/
theorem inPiece?_of_word (hlast : 'L' ∉ last) (hword : isBody body = false) :
    inPiece? (last ++ 'L' :: body) = inPiece? body := by
  by_cases hbody : body = []
  · subst hbody
    have hplain : ∀ c ∈ ['L'], isPlainChar c = true := List.forall_mem_singleton.2 rfl
    have hlead : 'L' ∉ plainRun last := fun h => hlast (mem_of_mem_plainRun h)
    rw [inPiece?_of_lead hlead (plainRun_append_of_plain hplain last), if_pos rfl]
    exact (inPiece?_of_not_mem fun h => by cases mem_of_mem_plainRun h).symm
  · -- something that is not plain stands between the `L` and the end of the piece
    obtain ⟨c, hc, hother⟩ : ∃ c ∈ body, isBodyChar c = false := by
      have hempty : body.isEmpty = false := by simpa using hbody
      simpa [isBody, hempty] using hword
    have hplain : isPlainChar c = false := by
      cases hp : isPlainChar c with
      | false => rfl
      | true => rw [isBodyChar_of_isPlainChar hp] at hother; cases hother
    have hrun : plainRun (last ++ 'L' :: body) = plainRun body := by
      rw [← List.singleton_append, ← List.append_assoc, plainRun_append_of_mem hc hplain]
    rw [inPiece?, hrun, ← inPiece?]

/-! ## §3 The pieces of a line -/

/-- The references of the pieces of a line that a `;` ends. -/
def inPieces (line : Text) : List Text := (cut ';' line).dropLast.filterMap inPiece?

theorem inPieces_ended (hbody : ';' ∉ body) (rest : Text) :
    inPieces (body ++ ';' :: rest) = (inPiece? body).toList ++ inPieces rest := by
  rw [inPieces, cut_append_sep hbody, List.dropLast_cons_of_ne_nil (cut_ne_nil _ _),
    List.filterMap_cons]
  cases inPiece? body <;> rfl

/-- The pieces before the first `L` hold no reference. -/
theorem inPieces_lead (hl : 'L' ∉ lead) (tail : Text) :
    ∃ last first others, 'L' ∉ last ∧ cut ';' tail = first :: others ∧
      inPieces (lead ++ 'L' :: tail)
        = ((last ++ 'L' :: first) :: others).dropLast.filterMap inPiece? := by
  have hend : ';' ∉ ['L'] := by decide
  obtain ⟨first, others, htail, hfirst⟩ := cut_append_of_not_mem hend tail
  obtain ⟨pieces, last, first', others', hlead, hfirst', hwhole⟩ :=
    cut_append ';' lead ('L' :: tail)
  rw [List.singleton_append] at hfirst
  rw [hfirst] at hfirst'
  obtain ⟨rfl, rfl⟩ := List.cons_eq_cons.1 hfirst'
  have hquiet : ∀ piece ∈ pieces ++ [last], 'L' ∉ piece := fun piece hpiece hm =>
    hl (mem_of_mem_cut (hlead ▸ hpiece) hm)
  have hnone : pieces.filterMap inPiece? = [] := List.filterMap_eq_nil_iff.2 fun piece hpiece =>
    inPiece?_of_not_mem fun hm =>
      hquiet piece (List.mem_append_left _ hpiece) (mem_of_mem_plainRun hm)
  refine ⟨last, first, others, hquiet last (by simp), htail, ?_⟩
  rw [inPieces, hwhole, List.dropLast_append_of_ne_nil (by simp), List.filterMap_append, hnone]
  rfl

theorem inPieces_lead_ended (hl : 'L' ∉ lead) (hbody : ';' ∉ body) (rest : Text) :
    ∃ last, 'L' ∉ last ∧ inPieces (lead ++ 'L' :: (body ++ ';' :: rest))
      = (inPiece? (last ++ 'L' :: body)).toList ++ inPieces rest := by
  obtain ⟨last, first, others, hlast, hcut, hpieces⟩ := inPieces_lead hl (body ++ ';' :: rest)
  rw [cut_append_sep hbody] at hcut
  obtain ⟨rfl, rfl⟩ := List.cons_eq_cons.1 hcut
  refine ⟨last, hlast, ?_⟩
  rw [hpieces, List.dropLast_cons_of_ne_nil (cut_ne_nil _ _), List.filterMap_cons, inPieces]
  cases inPiece? (last ++ 'L' :: body) <;> rfl

theorem inPieces_of_not_mem (h : 'L' ∉ text) : inPieces text = [] :=
  List.filterMap_eq_nil_iff.2 fun _ hpiece => inPiece?_of_not_mem fun hm =>
    h (mem_of_mem_cut (List.dropLast_subset _ hpiece) (mem_of_mem_plainRun hm))

/-! ## §4 Reading piece by piece -/

/-- Without type arguments, reading comes upon the references of the pieces. -/
theorem Reads.eq_inPieces {found : List Sighting} (h : Reads bound depth text found)
    (hbracket : '<' ∉ text) : found = (inPieces text).map .reference := by
  induction h with
  | quiet hL => rw [inPieces_of_not_mem hL, List.map_nil]
  | @unended depth lead tail hl hend =>
    obtain ⟨last, first, others, -, hcut, hpieces⟩ := inPieces_lead hl tail
    rw [cut_of_not_mem hend] at hcut
    obtain ⟨rfl, rfl⟩ := List.cons_eq_cons.1 hcut
    rw [hpieces]
    rfl
  | @word depth lead body rest found hl hbody hword hr ih =>
    obtain ⟨last, hlast, hpieces⟩ := inPieces_lead_ended hl hbody rest
    have hfound := ih fun hm => hbracket (List.mem_append_right _ (List.mem_cons_of_mem _ hm))
    rw [hfound, hpieces, inPiece?_of_word hlast hword, inPieces_ended hbody]
  | @plain depth lead body rest found hl hbody ha hr ih =>
    obtain ⟨last, hlast, hpieces⟩ := inPieces_lead_ended hl (end_not_mem_of_isBody hbody) rest
    have hfound := ih fun hm => hbracket (by simp [hm])
    simp only [isBody, Bool.and_eq_true, Bool.not_eq_true', List.isEmpty_eq_false_iff,
      List.all_eq_true] at hbody
    have hplain : ∀ c ∈ body, isPlainChar c = true := fun c hc =>
      isPlainChar_of_isBodyChar (hbody.2 c hc) (by rintro rfl; exact hbracket (by simp [hc]))
    rw [hfound, hpieces, inPiece?_of_plain hlast hplain hbody.1]
    rfl
  | closed => exact absurd (by simp) hbracket
  | opened => exact absurd (by simp) hbracket

theorem sightings_eq_inPieces {line : Text} (h : '<' ∉ line) :
    sightings line = (inPieces line).map .reference :=
  (reads_scan (some maxDepth) 0 line).eq_inPieces h

/-- **A line without type arguments is read piece by piece**: its references are those of the
pieces that a `;` ends, at most one from each, and a piece holds a reference where the longest run
of plain characters at its end has something behind its first `L`. -/
theorem inLine_eq_inPieces {line : Text} (h : '<' ∉ line) :
    inLine line = NameSet.ofList ((cut ';' line).dropLast.filterMap inPiece?) ∧
      ∀ piece body, inPiece? piece = some body ↔
        ∃ lead, IsLastRun (lead ++ 'L' :: body) piece ∧ 'L' ∉ lead ∧ body ≠ [] := by
  refine ⟨?_, fun _ _ => inPiece?_eq_some⟩
  rw [inLine, sightings_eq_inPieces h, List.filterMap_map]
  exact congrArg NameSet.ofList List.filterMap_some

/-- Of the three pieces of `aL;LxL(LA>;LB` that hold an `L`, one is left without anything behind
it and one is not ended. -/
theorem inLine_of_three_pieces : '<' ∉ ['a', 'L', ';', 'L', 'x', 'L', '(', 'L', 'A', '>', ';',
      'L', 'B'] ∧
    inLine ['a', 'L', ';', 'L', 'x', 'L', '(', 'L', 'A', '>', ';', 'L', 'B']
      = NameSet.ofList [['A', '>']] := by
  have hbracket : '<' ∉ ['a', 'L', ';', 'L', 'x', 'L', '(', 'L', 'A', '>', ';', 'L', 'B'] := by
    decide
  refine ⟨hbracket, ?_⟩
  rw [(inLine_eq_inPieces hbracket).1]
  decide

end ClassGraph.Reference
