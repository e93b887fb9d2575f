/-
ClassGraph.Proofs.Settings.Package — the paths below a package.

The pattern of the paths below a package is written out of chunks: dots, the
characters of the parts, and brackets between the parts. `Writes` says that a
chunk is read as its pieces whatever stands around it; a character of a part
stands for itself, since one with a meaning of its own is escaped
(`writes_escape`). The pieces together stand for the texts in which the parts
are spelled between stretches of one line, with a separator of either kind
after each part but the last, and `paths_exact` says of every package that these
are the paths which the settings select.
-/
import ClassGraph.Proofs.Pattern.Whole
import ClassGraph.Proofs.Text.Pieces
import ClassGraph.Settings.Basic

namespace ClassGraph

/-! ## §1 Texts below a package -/

/-- A text spells the parts of a package, with a separator of either kind between any two. -/
inductive Spelled : List Text → Text → Prop
  | last (part : Text) : Spelled [part] part
  | before (part : Text) {c : Char} (hc : c = '/' ∨ c = '\\') {rest : List Text} {t : Text}
      (h : Spelled rest t) : Spelled (part :: rest) (part ++ c :: t)

/-- In a text, the parts of a package are spelled between stretches of one line. -/
def BelowPackage (parts : List Text) (v : Text) : Prop :=
  ∃ x t y, v = x ++ t ++ y ∧ '\n' ∉ x ∧ '\n' ∉ y ∧ Spelled parts t

/-! ## §2 Chunks of a pattern -/

namespace Reader

variable {t t' : Text} {l l' : List Piece} {items : List Item} {rest : Text}

/-- The reader in a branch outside of all groups, after the items of that branch. -/
def inBranch (items : List Item) : Reader := { start with group := ⟨[], items⟩ }

/-- A chunk is read as its pieces, whatever stands before and after it. -/
def Writes (t : Text) (l : List Piece) : Prop :=
  ∀ items rest, (inBranch items).run (t ++ rest)
    = (inBranch ((l.map Item.piece).reverse ++ items)).run rest

theorem Writes.nil : Writes [] [] := fun _ _ => rfl

theorem Writes.append (h : Writes t l) (h' : Writes t' l') : Writes (t ++ t') (l ++ l') := by
  intro items rest
  rw [List.append_assoc, h, h', List.map_append, List.reverse_append, List.append_assoc]

theorem tallest_le {heights : List Nat} {n : Nat} (h : ∀ m ∈ heights, m ≤ n) :
    tallest heights ≤ n := by
  have hfold : ∀ k, k ≤ n → heights.foldl max k ≤ n := by
    induction heights with
    | nil => exact fun _ hk => hk
    | cons m heights ih =>
      obtain ⟨hm, hrest⟩ := List.forall_mem_cons.1 h
      exact fun k hk => ih hrest _ (Nat.max_le.2 ⟨hk, hm⟩)
  exact hfold 0 (Nat.zero_le n)

/-- A branch stands for its pieces in turn. -/
theorem pattern_inBranch (l : List Piece) :
    (inBranch (l.map Item.piece).reverse).group.content.pattern = .cats (l.map (·.pattern)) := by
  change Pattern.cats (((l.map Item.piece).reverse.reverse).filterMap Item.pattern?) = _
  rw [List.reverse_reverse, List.filterMap_map]
  exact congrArg Pattern.cats (congrFun (List.filterMap_eq_map (f := Piece.pattern)) l)

theorem height_inBranch_le {n : Nat} (h : ∀ p ∈ l, p.height ≤ n) :
    (inBranch (l.map Item.piece).reverse).group.content.height ≤ n + 1 := by
  have htallest : tallest ((l.map Item.piece).reverse.map Item.height) ≤ n := by
    refine tallest_le fun m hm => ?_
    rw [List.map_reverse, List.mem_reverse, List.map_map] at hm
    obtain ⟨p, hp, rfl⟩ := List.mem_map.1 hm
    exact h p hp
  change (if _ then _ else _) ≤ _
  split
  · exact Nat.le_succ_of_le htallest
  · exact Nat.succ_le_succ htallest

/-- The piece of a character that stands for itself. -/
def literal (c : Char) : Piece := ⟨.one (.single c), 0⟩

/-- The piece of a separator of either kind. -/
def separator : Piece := ⟨.one (.union (.single '/') (.single '\\')), 2⟩

/-- The piece of a stretch of one line. -/
def line : Piece := ⟨.times (.one (.compl (.single '\n'))) 0 none, 1⟩

theorem writes_separator : Writes "[/\\\\]".toList [separator] := fun _ _ => rfl

theorem run_dots (items : List Item) (h : rest.head? ≠ some '?') :
    (inBranch items).run (".*".toList ++ rest) = (inBranch (.piece line :: items)).run rest := by
  let dot : Item := .piece ⟨.one (.compl (.single '\n')), 0⟩
  have hdot : (inBranch items).step '.' ('*' :: rest) = .ok (inBranch (dot :: items)) := rfl
  have hstar : (inBranch (dot :: items)).step '*' rest = .ok (inBranch (.piece line :: items)) := by
    change Except.ok (reluctant rest (inBranch (.piece line :: items))) = _
    rw [reluctant, if_neg h]
  change (inBranch items).run ('.' :: '*' :: rest) = _
  rw [run, hdot, Except.bind, run, hstar]
  rfl

/-- A character with no meaning of its own stands for itself. -/
theorem step_of_not_isMeta {c : Char} (h : isMeta c = false) (items : List Item) (rest : Text) :
    (inBranch items).step c rest = .ok (inBranch (.piece (literal c) :: items)) := by
  change (inBranch items).plainStep c rest = _
  unfold plainStep
  split
  case h_13 => rfl
  all_goals exact absurd h (by decide)

/-- A character with a meaning of its own stands for itself where it is escaped. -/
theorem run_escaped {c : Char} (h : isMeta c = true) (items : List Item) (rest : Text) :
    (inBranch items).run ('\\' :: c :: rest)
      = (inBranch (.piece (literal c) :: items)).run rest := by
  let escaping : Reader := { inBranch items with mode := .escaped .branch }
  have hescape : escaping.escapedStep .branch c rest
      = .ok (inBranch (.piece (literal c) :: items)) := by
    rw [escapedStep, isPlainEscape, h, Bool.true_or, if_pos rfl]
    rfl
  change (escaping.escapedStep .branch c rest).bind _ = _
  rw [hescape]
  rfl

theorem writes_char (c : Char) : Writes (if isMeta c then ['\\', c] else [c]) [literal c] := by
  intro items rest
  split
  case isTrue h => exact run_escaped h items rest
  case isFalse h =>
    rw [Bool.not_eq_true] at h
    change (inBranch items).run (c :: rest) = _
    rw [run, step_of_not_isMeta h]
    rfl

theorem writes_escape (part : Text) : Writes (Settings.escape part) (part.map literal) := by
  induction part with
  | nil => exact .nil
  | cons c part ih => exact (writes_char c).append ih

/-! ## §3 The pattern of a package -/

/-- The pieces of parts between separators. -/
def spelling (parts : List Text) : List Piece := join [separator] (parts.map (List.map literal))

theorem spelling_cons {part : Text} {rest : List Text} (h : rest ≠ []) :
    spelling (part :: rest) = part.map literal ++ separator :: spelling rest := by
  have hne : rest.map (List.map literal) ≠ [] := by simpa using h
  rw [spelling, List.map_cons, join_cons hne, List.append_assoc]
  rfl

theorem writes_parts (parts : List Text) :
    Writes (join "[/\\\\]".toList (parts.map Settings.escape)) (spelling parts) := by
  induction parts with
  | nil => exact .nil
  | cons part rest ih =>
    by_cases hr : rest = []
    · subst hr
      exact writes_escape part
    · have hne : rest.map Settings.escape ≠ [] := by simpa using hr
      rw [spelling_cons hr, List.map_cons, join_cons hne, List.append_assoc]
      exact (writes_escape part).append (writes_separator.append ih)

theorem head?_escape {part : Text} (h : rest.head? ≠ some '?') :
    (Settings.escape part ++ rest).head? ≠ some '?' := by
  cases part with
  | nil => exact h
  | cons c part =>
    have hescape : Settings.escape (c :: part)
        = (if isMeta c then ['\\', c] else [c]) ++ Settings.escape part := rfl
    rw [hescape]
    split
    case isTrue => simp
    case isFalse hmeta =>
      rintro hc
      obtain rfl : c = '?' := by simpa using hc
      exact hmeta (by decide)

/-- No question mark follows the dots before the parts. -/
theorem head?_parts (parts : List Text) :
    (join "[/\\\\]".toList (parts.map Settings.escape) ++ ".*".toList).head? ≠ some '?' := by
  cases parts with
  | nil => simp
  | cons part rest =>
    by_cases hr : rest = []
    · subst hr
      exact head?_escape (by simp)
    · have hne : rest.map Settings.escape ≠ [] := by simpa using hr
      rw [List.map_cons, join_cons hne, List.append_assoc, List.append_assoc]
      exact head?_escape (by simp)

/-- The pieces of the pattern of the paths below a package. -/
def packagePieces (parts : List Text) : List Piece := line :: (spelling parts ++ [line])

theorem run_packagePattern (parts : List Text) : start.run (Settings.packagePattern parts)
    = .ok (inBranch ((packagePieces parts).map Item.piece).reverse) := by
  have hnone : List.head? (α := Char) [] ≠ some '?' := by simp
  have hend := run_dots (((spelling parts).map Item.piece).reverse ++ [.piece line]) hnone
  rw [Settings.packagePattern, List.append_assoc]
  change (inBranch []).run _ = _
  rw [run_dots [] (head?_parts parts), writes_parts, ← List.append_nil ".*".toList, hend]
  simp [packagePieces, run]

theorem height_le_of_mem_packagePieces {parts : List Text} {p : Piece}
    (h : p ∈ packagePieces parts) : p.height ≤ 2 := by
  have hspelling : p ∈ spelling parts → p.height ≤ 2 := by
    intro hp
    rcases mem_join hp with rfl | ⟨piece, hpiece, hp⟩
    · decide
    · obtain ⟨part, -, rfl⟩ := List.mem_map.1 hpiece
      obtain ⟨c, -, rfl⟩ := List.mem_map.1 hp
      exact Nat.zero_le 2
  have hline : line.height ≤ 2 := by decide
  rw [packagePieces, List.mem_cons, List.mem_append, List.mem_singleton] at h
  rcases h with rfl | hp | rfl
  · exact hline
  · exact hspelling hp
  · exact hline

theorem height_packagePieces_le (parts : List Text) :
    (inBranch ((packagePieces parts).map Item.piece).reverse).group.content.height ≤ 3 :=
  height_inBranch_le fun _ hp => height_le_of_mem_packagePieces hp

end Reader

namespace Pattern

open Reader

/-- The pattern of the paths below a package is read as it is meant. -/
theorem read_packagePattern (parts : List Text) :
    read (Settings.packagePattern parts) = .ok (cats ((packagePieces parts).map (·.pattern))) := by
  have hsmall : 3 ≤ maxHeight := by decide
  have hheight := Nat.le_trans (height_packagePieces_le parts) hsmall
  rw [read, run_packagePattern]
  exact finish_eq_ok.2 ⟨⟨.inl rfl, rfl⟩, hheight, pattern_inBranch _⟩

theorem fits_packagePattern (parts : List Text) : fits (Settings.packagePattern parts) = true := by
  have hroom : 3 + 2 ≤ maxHeight := by decide
  have hheight := Nat.add_le_add_right (height_packagePieces_le parts) 2
  rw [fits, run_packagePattern]
  simp only [Except.toOption, Option.any_some, Bool.and_eq_true, decide_eq_true_eq]
  exact ⟨rfl, Nat.le_trans hheight hroom⟩

/-! ## §4 What the pattern matches -/

variable {u x w v : Text}

/-- A stretch of one line is any text without line feeds. -/
theorem stretch_line : line.pattern.Stretch u x w ↔ '\n' ∉ x := by
  have hset : ∀ c, (CharSet.compl (.single '\n')).has c = true ↔ c ≠ '\n' := by
    intro c
    rw [CharSet.has_compl, Bool.not_eq_true', ← Bool.not_eq_true, CharSet.has_single]
  have hrow : line.pattern.Stretch u x w ↔ ∃ n, 0 ≤ n ∧
      (∀ m ∈ (none : Option Nat), n ≤ max 0 m) ∧
        InRow (one (.compl (.single '\n'))).Stretch n u x w := Iff.rfl
  simp only [hrow, inRow_one, hset]
  constructor
  · rintro ⟨n, -, -, -, hall⟩ hmem
    exact hall '\n' hmem rfl
  · intro hx
    exact ⟨x.length, Nat.zero_le _, (fun m hm => by cases hm), rfl, fun c hc heq => hx (heq ▸ hc)⟩

theorem stretch_separator :
    separator.pattern.Stretch u x w ↔ ∃ c, (c = '/' ∨ c = '\\') ∧ x = [c] := by
  simp [separator, Stretch]

theorem stretch_literals {part : Text} :
    (cats ((part.map literal).map (·.pattern))).Stretch u x w ↔ x = part := by
  induction part generalizing u x with
  | nil => exact Iff.rfl
  | cons c part ih =>
    simp only [List.map_cons, stretch_cats_cons, ih, literal, Stretch, CharSet.has_single]
    constructor
    · rintro ⟨_, z, rfl, ⟨_, rfl, rfl⟩, rfl⟩
      rfl
    · rintro rfl
      exact ⟨[c], part, rfl, ⟨c, rfl, rfl⟩, rfl⟩

theorem stretch_spelling {parts : List Text} (h : parts ≠ []) :
    (cats ((spelling parts).map (·.pattern))).Stretch u x w ↔ Spelled parts x := by
  induction parts generalizing u x with
  | nil => exact absurd rfl h
  | cons part rest ih =>
    by_cases hr : rest = []
    case pos =>
      subst hr
      change (cats ((part.map literal).map (·.pattern))).Stretch u x w ↔ _
      rw [stretch_literals]
      constructor
      · rintro rfl
        exact .last x
      · rintro ⟨⟩
        · rfl
        · next h => cases h
    case neg =>
      rw [spelling_cons hr, List.map_append, List.map_cons, stretch_cats_append]
      simp only [stretch_literals, stretch_cats_cons, stretch_separator, ih hr]
      constructor
      · rintro ⟨_, _, rfl, rfl, _, t, rfl, ⟨c, hc, rfl⟩, ht⟩
        exact .before _ hc ht
      · intro hspelled
        cases hspelled with
        | last => exact absurd rfl hr
        | before _ hc ht => exact ⟨part, _, rfl, rfl, [_], _, rfl, ⟨_, hc, rfl⟩, ht⟩

/-- The pattern of the paths below a package matches the whole of such texts. -/
theorem stretch_packagePieces {parts : List Text} (h : parts ≠ []) :
    (cats ((packagePieces parts).map (·.pattern))).Stretch [] v [] ↔ BelowPackage parts v := by
  rw [packagePieces, List.map_cons, List.map_append, stretch_cats_cons]
  simp only [stretch_cats_append, stretch_line, stretch_spelling h, BelowPackage, List.append_assoc]
  constructor
  · rintro ⟨x, _, rfl, hx, t, y, rfl, ht, hy⟩
    exact ⟨x, t, y, rfl, hx, stretch_line.1 hy, ht⟩
  · rintro ⟨x, t, y, rfl, hx, hy, ht⟩
    exact ⟨x, t ++ y, rfl, hx, t, y, rfl, ht, stretch_line.2 hy⟩

end Pattern

/-! ## §5 Settings below a package -/

namespace Settings

open Pattern

/-- **The settings select the paths below their package**, and all where they name none. -/
theorem paths_exact (c : Settings) :
    (c.package.elim [] packageParts = [] ∧ c.paths = .ok none) ∨
      (c.package.elim [] packageParts ≠ [] ∧ ∃ selection, c.paths = .ok (some selection) ∧
        ∀ v, selection.accepts v = true ↔ BelowPackage (c.package.elim [] packageParts) v) := by
  unfold paths
  generalize c.package.elim [] packageParts = parts
  by_cases h : parts = []
  case pos =>
    subst h
    exact .inl ⟨rfl, rfl⟩
  case neg =>
    have hread := read_packagePattern parts
    have hcontained : read (packagePattern parts) ≠ .error .unopenedGroup := by simp [hread]
    have hwhole := (readWhole_eq_ok hcontained).2 ⟨_, hread, fits_packagePattern parts, rfl⟩
    refine .inr ⟨h, .matching _, ?_, fun v => foundIn_whole.trans (stretch_packagePieces h)⟩
    simp [h, Selection.ofPattern, hwhole, Except.map]

end Settings

end ClassGraph
