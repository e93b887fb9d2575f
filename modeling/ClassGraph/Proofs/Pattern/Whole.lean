/-
ClassGraph.Proofs.Pattern.Whole — patterns that select by the whole of a text.

A selecting pattern is read inside a group between the marks of the text's
beginning and end. A pattern that is valid on its own and closes no group but
its own is read there as it is on its own, and then it is found where it
matches the whole of a text: the flags that it sets end with the group, and
its alternatives stay inside. Two things can still go wrong. A comment at its
end takes the closing of the group for its own text, and the group and the
marks nest it two levels deeper than it is by itself. `fits` says that neither
happens. The main statements:

  * `readWhole_eq_ok` — a pattern can be selected by where it is valid and fits;
  * `foundIn_whole`   — what it then selects are the texts that are one stretch
    of it.
-/
import ClassGraph.Proofs.Pattern.Stretch
import ClassGraph.Proofs.Pattern.Within
import ClassGraph.Selection

namespace ClassGraph

namespace Reader

variable {r : Reader} {around : List (Group × Flags)}

/-! ## §1 The end of the group -/

theorem finish_of_mode (h : r.mode = .plain ∨ r.mode = .counted) : r.finish
    = if r.outer.isEmpty then
        if r.group.content.height ≤ maxHeight then .ok r.group.content.pattern else .error .tooDeep
      else .error .unclosedGroup := by
  rcases h with h | h <;> simp only [finish, h]

/-- A pattern is read where the text ends outside of every construct, at no great height. -/
theorem finish_eq_ok {p : Pattern} : r.finish = .ok p ↔
    r.Outside ∧ r.group.content.height ≤ maxHeight ∧ r.group.content.pattern = p := by
  by_cases hmode : r.mode = .plain ∨ r.mode = .counted
  case pos =>
    rw [finish_of_mode hmode, Outside]
    by_cases houter : r.outer = []
    · by_cases hheight : r.group.content.height ≤ maxHeight <;> simp [houter, hmode, hheight]
    · simp [houter]
  case neg =>
    constructor
    · intro hfinish
      unfold finish at hfinish
      split at hfinish <;> simp_all
    · exact fun h => absurd h.1.1 hmode

/-- Where a group stays open, there is no pattern. -/
theorem finish_within (h : around ≠ []) : ∃ e, (r.within around).finish = .error e := by
  cases hfinish : (r.within around).finish with
  | error e => exact ⟨e, rfl⟩
  | ok p =>
    obtain ⟨⟨-, houter⟩, -⟩ := finish_eq_ok.1 hfinish
    exact absurd (List.append_eq_nil_iff.1 houter).2 h

/-- What stands around a pattern that must match the whole of a text. -/
def selecting : List (Group × Flags) := [(⟨[], [.piece ⟨.look .textStart, 0⟩]⟩, Flags.usual)]

/-- The group of a selecting pattern, after what stands in it. -/
def selected (inner : Piece) : Group :=
  ⟨[], [.piece ⟨inner.pattern, inner.height + 1⟩, .piece ⟨.look .textStart, 0⟩]⟩

theorem finish_selected (inner : Piece) (h : r.outer = []) :
    (({ r with group := selected inner }.push ⟨.look .textEnd, 0⟩).finish)
      = if inner.height + 2 ≤ maxHeight then
          .ok (.cats [.look .textStart, inner.pattern, .look .textEnd])
        else .error .tooDeep := by
  have hheight : ∀ n, tallest [0, n + 1, 0] + 1 = n + 2 := by simp [tallest]
  simp only [finish, push, h]
  change (if tallest [0, inner.height + 1, 0] + 1 ≤ maxHeight then _ else _) = _
  rw [hheight]
  rfl

/-- At the closing, what has been read becomes a part of the pattern of whole texts. -/
theorem run_closing (h : r.Closes ')') : ((r.within selecting).run [')', '$']).bind finish
    = if r.group.content.height + 2 ≤ maxHeight then
        .ok (.cats [.look .textStart, r.group.content.pattern, .look .textEnd])
      else .error .tooDeep := by
  obtain ⟨-, ⟨hmode, houter⟩, hcomment, htaken⟩ := h
  let r' : Reader := { r with
    flags := Flags.usual, outer := [], mode := .plain, group := selected r.group.content }
  have hclosing : (r.within selecting).step ')' ['$'] = .ok r' := by
    rw [step_eq_act (r := r.within selecting) hcomment htaken (by decide),
      act_closing (r := r.within selecting) hmode]
    simp only [leave, within, houter, selecting, List.nil_append]
    rfl
  have hend : r'.step '$' [] = .ok (r'.push ⟨.look .textEnd, 0⟩) := by
    rw [step_eq_act (r := r') hcomment htaken (by decide)]
    rfl
  rw [run, hclosing, Except.bind, run, hend]
  exact finish_selected (r := r') r.group.content rfl

/-- Where the closing does not close the group around, there is no pattern. -/
theorem run_unclosed (h : ¬r.Closes ')') (htaken : r.taken = 0) (haround : around ≠ []) :
    ∃ e, ((r.within around).run [')', '$']).bind finish = .error e := by
  have hfew : r.taken ≤ ['$'].length + 1 := by simp [htaken]
  obtain ⟨hfirst, htaken'⟩ := step_alike around hfew h
  rw [run, hfirst]
  cases hstep : r.step ')' ['$'] with
  | error e => exact ⟨e, rfl⟩
  | ok r' =>
    have hdollar : ¬r'.Closes '$' := fun hclose => absurd hclose.eq (by decide)
    have hsecond := (step_alike around (htaken' r' hstep) hdollar).within
    simp only [Except.map, Except.bind, run, hsecond]
    cases r'.step '$' [] with
    | error e => exact ⟨e, rfl⟩
    | ok r'' => exact finish_within haround

end Reader

/-! ## §2 Selecting patterns -/

namespace Pattern

variable {written s : Text} {p q : Pattern}

/-- Whether a pattern can stand in a group between marks: it does not end in a comment, and leaves
room for two levels. -/
def fits (written : Text) : Bool :=
  (Reader.start.run written).toOption.any fun r =>
    !r.comment && decide (r.group.content.height + 2 ≤ Reader.maxHeight)

/-- The pattern of the texts that as a whole are one stretch. -/
def whole (p : Pattern) : Pattern := cats [.look .textStart, p, .look .textEnd]

theorem foundIn_whole : p.whole.foundIn s = true ↔ p.Stretch [] s [] := by
  rw [foundIn_iff]
  constructor
  · rintro ⟨u, x, w, rfl, y, z, rfl, ⟨rfl, hstart⟩, z', y', rfl, hp, rfl, hend⟩
    have hu : u = [] := List.getLast?_eq_none_iff.1 (Option.isNone_iff_eq_none.1 hstart)
    have hw : w = [] := List.head?_eq_none_iff.1 (Option.isNone_iff_eq_none.1 hend)
    subst hu hw
    simpa using hp
  · intro hp
    refine ⟨[], s, [], by simp, [], s, rfl, ⟨rfl, rfl⟩, s, [], by simp, ?_, rfl, rfl⟩
    simpa using hp

theorem read_wrapped (written : Text) : read ("^(?:".toList ++ written ++ ")$".toList)
    = ((Reader.start.within Reader.selecting).run (written ++ [')', '$'])).bind Reader.finish :=
  rfl

theorem readWhole_eq (written : Text) : readWhole written
    = (read ("^(?:".toList ++ written ++ ")$".toList)).mapError fun cause => ⟨written, cause⟩ := by
  unfold readWhole
  cases read ("^(?:".toList ++ written ++ ")$".toList) <;> rfl

/-- **A selecting pattern is read as it is on its own**, unless it closes a group that it does not
open; but it must not end in a comment, and room for two levels must be left. -/
theorem readWhole_eq_ok (h : read written ≠ .error .unopenedGroup) :
    readWhole written = .ok q ↔ ∃ p, read written = .ok p ∧ fits written = true ∧ p.whole = q := by
  have hrun : Reader.start.run written ≠ .error .unopenedGroup := by
    intro hrun
    apply h
    rw [read, hrun]
    rfl
  obtain ⟨hwithin, htaken⟩ := Reader.run_within Reader.selecting (Nat.zero_le _) hrun
  rw [readWhole_eq, read_wrapped, hwithin, read, fits]
  cases hread : Reader.start.run written with
  | error e =>
    constructor
    · intro h
      cases h
    · rintro ⟨p, hp, -⟩
      cases hp
  | ok r =>
    simp only [Except.bind, Except.toOption, Option.any_some, Bool.and_eq_true, Bool.not_eq_true',
      decide_eq_true_eq]
    by_cases hclose : r.Closes ')'
    case pos =>
      have hclosing := Reader.run_closing hclose
      simp only [Except.bind] at hclosing
      rw [hclosing]
      constructor
      · intro hok
        split at hok
        case isFalse => cases hok
        case isTrue hheight =>
          have hfinish := Reader.finish_eq_ok.2
            ⟨hclose.outside, Nat.le_of_add_right_le hheight, rfl⟩
          exact ⟨_, hfinish, ⟨hclose.comment, hheight⟩, Except.ok.inj hok⟩
      · rintro ⟨p, hp, ⟨-, hheight⟩, rfl⟩
        obtain ⟨-, -, rfl⟩ := Reader.finish_eq_ok.1 hp
        rw [if_pos hheight]
        rfl
    case neg =>
      have haround : Reader.selecting ≠ [] := List.cons_ne_nil _ _
      obtain ⟨e, he⟩ := Reader.run_unclosed hclose (htaken r hread) haround
      simp only [Except.bind] at he
      rw [he]
      constructor
      · exact fun hok => by cases hok
      · rintro ⟨p, hp, ⟨hcomment, -⟩, -⟩
        exact absurd ⟨rfl, (Reader.finish_eq_ok.1 hp).1, hcomment, htaken r hread⟩ hclose

end Pattern

end ClassGraph
