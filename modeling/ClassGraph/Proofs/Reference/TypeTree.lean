/-
ClassGraph.Proofs.Reference.TypeTree — types with their arguments, as text.

A type is a name with the types that are its arguments, each of which may
have arguments in turn. A line may hold several types, with any text between
them that does not hold an `L`. Here types and lines are written out, with
the level and the place of every name in them. The main statements:

  * `occurrencesIn_add`  — names move with the line that holds them;
  * `occurrence_bounds`  — a name lies inside the type that holds it;
  * `closing_render`     — the brackets of a type are balanced, so arguments
                           end where they should (`closing_args`), or the
                           line is cut off inside them (`closing_of_cut`).
-/
import ClassGraph.Proofs.Reference.Reads

namespace ClassGraph.Reference

/-! ## §1 Types -/

/-- A name as it stands in a type. -/
structure TypeName where
  text : Text
  isName : isName text = true

/-- A type: a name and its arguments. -/
inductive TypeTree where
  | node (name : TypeName) (args : List TypeTree)

mutual

/-- A type as it is written. -/
def TypeTree.render : TypeTree → Text
  | .node name args =>
    'L' :: (name.text
      ++ if args.isEmpty then [';'] else '<' :: (renderArgs args ++ ['>', ';']))

/-- Types as they are written one after another. -/
def renderArgs : List TypeTree → Text
  | [] => []
  | t :: ts => t.render ++ renderArgs ts

end

/-- Types in a line, each with the text that follows it up to the next one. -/
abbrev Stretch := List (TypeTree × Text)

/-- The types of a line as they are written, with what stands between them. -/
def renderStretch : Stretch → Text
  | [] => []
  | (t, gap) :: rest => t.render ++ (gap ++ renderStretch rest)

/-- A name in a line of types. -/
structure Occurrence where
  name : Text
  /-- How many types it lies inside of. -/
  level : Nat
  /-- Where its `L` stands. -/
  start : Nat

mutual

/-- The names of a type that begins at `start`. -/
def TypeTree.occurrences (level start : Nat) : TypeTree → List Occurrence
  | .node name args =>
    ⟨name.text, level, start⟩ :: occurrencesInArgs (level + 1) (start + name.text.length + 2) args

/-- The names of types that stand one after another from `start` on. -/
def occurrencesInArgs (level start : Nat) : List TypeTree → List Occurrence
  | [] => []
  | t :: ts => t.occurrences level start ++ occurrencesInArgs level (start + t.render.length) ts

end

/-- The names of the types of a line, from `start` on. -/
def occurrencesIn (level start : Nat) : Stretch → List Occurrence
  | [] => []
  | (t, gap) :: rest =>
    t.occurrences level start
      ++ occurrencesIn level (start + t.render.length + gap.length) rest

/-- What stands between the types of a line holds no `L`. -/
def Separated (s : Stretch) : Prop := ∀ p ∈ s, 'L' ∉ p.2

/-- Arguments are types with nothing between them. -/
def stretchOf (args : List TypeTree) : Stretch := args.map fun t => (t, [])

theorem separated_stretchOf (args : List TypeTree) : Separated (stretchOf args) := by
  intro p hp
  obtain ⟨t, -, rfl⟩ := List.mem_map.1 hp
  simp

theorem renderStretch_stretchOf (args : List TypeTree) :
    renderStretch (stretchOf args) = renderArgs args := by
  induction args with
  | nil => rfl
  | cons t ts ih =>
    show t.render ++ ([] ++ renderStretch (stretchOf ts)) = t.render ++ renderArgs ts
    rw [ih, List.nil_append]

theorem occurrencesIn_stretchOf (level start : Nat) (args : List TypeTree) :
    occurrencesIn level start (stretchOf args) = occurrencesInArgs level start args := by
  induction args generalizing start with
  | nil => rfl
  | cons t ts ih =>
    show t.occurrences level start
        ++ occurrencesIn level (start + t.render.length + 0) (stretchOf ts) = _
    rw [Nat.add_zero, ih, occurrencesInArgs]

theorem render_leaf (name : TypeName) :
    (TypeTree.node name []).render = 'L' :: (name.text ++ [';']) := by
  simp [TypeTree.render]

theorem render_node {name : TypeName} {args : List TypeTree} (h : args ≠ []) :
    (TypeTree.node name args).render
      = 'L' :: (name.text ++ '<' :: (renderArgs args ++ ['>', ';'])) := by
  simp [TypeTree.render, h]

/-! ## §2 Where names stand -/

mutual

/-- Names move with the type that holds them. -/
theorem TypeTree.occurrences_add (level start shift : Nat) :
    ∀ t : TypeTree, t.occurrences level (start + shift)
      = (t.occurrences level start).map fun o => { o with start := o.start + shift }
  | .node name args => by
    have h := occurrencesInArgs_add (level + 1) (start + name.text.length + 2) shift args
    rw [TypeTree.occurrences, TypeTree.occurrences, List.map_cons, ← h]
    congr 2
    omega

theorem occurrencesInArgs_add (level start shift : Nat) :
    ∀ args : List TypeTree, occurrencesInArgs level (start + shift) args
      = (occurrencesInArgs level start args).map fun o => { o with start := o.start + shift }
  | [] => rfl
  | t :: ts => by
    have ht := t.occurrences_add level start shift
    have hts := occurrencesInArgs_add level (start + t.render.length) shift ts
    rw [occurrencesInArgs, occurrencesInArgs, List.map_append, ← ht, ← hts]
    congr 2
    omega

end

theorem occurrencesIn_add (level start shift : Nat) (s : Stretch) :
    occurrencesIn level (start + shift) s
      = (occurrencesIn level start s).map fun o => { o with start := o.start + shift } := by
  induction s generalizing start with
  | nil => rfl
  | cons p rest ih =>
    obtain ⟨t, gap⟩ := p
    have hrest := ih (start + t.render.length + gap.length)
    rw [occurrencesIn, occurrencesIn, List.map_append, ← hrest, t.occurrences_add]
    congr 2
    omega

mutual

/-- A name lies inside the type that holds it, no higher than that. -/
theorem TypeTree.occurrence_bounds {level start : Nat} {o : Occurrence} :
    ∀ {t : TypeTree}, o ∈ t.occurrences level start →
      level ≤ o.level ∧ start ≤ o.start ∧ o.start < start + t.render.length
  | .node name args, h => by
    rw [TypeTree.occurrences] at h
    rcases List.mem_cons.1 h with rfl | h
    · simp [TypeTree.render]
    · have hne : args ≠ [] := fun e => by simp [e, occurrencesInArgs] at h
      obtain ⟨hlevel, hstart, hend⟩ := occurrence_bounds_args h
      rw [render_node hne]
      simp only [List.length_cons, List.length_append]
      omega

theorem occurrence_bounds_args {level start : Nat} {o : Occurrence} :
    ∀ {args : List TypeTree}, o ∈ occurrencesInArgs level start args →
      level ≤ o.level ∧ start ≤ o.start ∧ o.start < start + (renderArgs args).length
  | [], h => by simp [occurrencesInArgs] at h
  | t :: ts, h => by
    rw [occurrencesInArgs] at h
    rw [renderArgs, List.length_append]
    rcases List.mem_append.1 h with h | h
    · obtain ⟨hlevel, hstart, hend⟩ := TypeTree.occurrence_bounds h
      omega
    · obtain ⟨hlevel, hstart, hend⟩ := occurrence_bounds_args h
      omega

end

theorem TypeTree.render_ends (t : TypeTree) : ∃ s, t.render = s ++ [';'] := by
  obtain ⟨name, args⟩ := t
  by_cases h : args = []
  · subst h
    exact ⟨'L' :: name.text, by simp [render_leaf]⟩
  · exact ⟨'L' :: (name.text ++ '<' :: (renderArgs args ++ ['>'])), by simp [render_node h]⟩

theorem renderArgs_ends {args : List TypeTree} (h : args ≠ []) :
    ∃ s, renderArgs args = s ++ [';'] := by
  induction args with
  | nil => exact absurd rfl h
  | cons t ts ih =>
    cases ts with
    | nil =>
      obtain ⟨s, hs⟩ := t.render_ends
      exact ⟨s, by simp [renderArgs, hs]⟩
    | cons t' ts =>
      obtain ⟨s, hs⟩ := ih (by simp)
      exact ⟨t.render ++ s, by rw [renderArgs, hs, List.append_assoc]⟩

/-- In whole arguments, a `;` stands behind every name. -/
theorem end_mem_drop_args {level : Nat} {o : Occurrence} {args : List TypeTree}
    (h : o ∈ occurrencesInArgs level 0 args) : ';' ∈ (renderArgs args).drop o.start := by
  have hne : args ≠ [] := fun e => by simp [e, occurrencesInArgs] at h
  obtain ⟨s, hs⟩ := renderArgs_ends hne
  obtain ⟨-, -, hend⟩ := occurrence_bounds_args h
  rw [hs] at hend ⊢
  simp only [List.length_append, List.length_cons, List.length_nil] at hend
  rw [List.drop_append_of_le_length (by omega)]
  simp

/-! ## §3 Brackets -/

/-- Characters that are no brackets are passed over. -/
theorem closing_append_of_plain {s : Text} (h : ∀ c ∈ s, c ≠ '<' ∧ c ≠ '>') (inner : Nat)
    (t : Text) : closing inner (s ++ t) = (closing inner t).map fun p => (s ++ p.1, p.2) := by
  induction s with
  | nil => simp
  | cons c s ih =>
    have hc := h c (List.mem_cons_self ..)
    have htail := ih fun c' hc' => h c' (List.mem_cons_of_mem _ hc')
    simp only [List.cons_append, closing, if_neg hc.1, if_neg hc.2, htail, Option.map_map]
    rfl

theorem closing_lt (inner : Nat) (t : Text) :
    closing inner ('<' :: t) = (closing (inner + 1) t).map fun p => ('<' :: p.1, p.2) := by
  simp [closing]

theorem closing_gt (inner : Nat) (t : Text) :
    closing (inner + 1) ('>' :: t) = (closing inner t).map fun p => ('>' :: p.1, p.2) := by
  simp [closing]

theorem closing_name (name : TypeName) (inner : Nat) (t : Text) :
    closing inner ('L' :: (name.text ++ t))
      = (closing inner t).map fun p => ('L' :: (name.text ++ p.1), p.2) := by
  have hplain : ∀ c ∈ 'L' :: name.text, c ≠ '<' ∧ c ≠ '>' := by
    intro c hc
    have hname := isNameChar_of_mem (isName_cons name.isName) hc
    constructor
    · rintro rfl
      exact absurd hname (by decide)
    · rintro rfl
      exact absurd hname (by decide)
  exact closing_append_of_plain hplain inner t

mutual

/-- The brackets of a type are balanced: what closes is behind it. -/
theorem closing_render (inner : Nat) (s : Text) : ∀ t : TypeTree,
    closing inner (t.render ++ s) = (closing inner s).map fun p => (t.render ++ p.1, p.2)
  | .node name args => by
    have hend : ∀ c ∈ [';'], c ≠ '<' ∧ c ≠ '>' := by
      intro c hc
      rw [List.mem_singleton.1 hc]
      decide
    by_cases h : args = []
    · subst h
      rw [render_leaf, List.cons_append, List.append_assoc, closing_name,
        closing_append_of_plain hend, Option.map_map]
      congr 1
      funext p
      simp
    · have hargs := closing_renderArgs (inner + 1) ('>' :: ([';'] ++ s)) args
      rw [render_node h]
      simp only [List.cons_append, List.append_assoc, List.nil_append] at hargs ⊢
      rw [closing_name, closing_lt, hargs, closing_gt,
        ← List.singleton_append, closing_append_of_plain hend]
      simp only [Option.map_map]
      rfl

theorem closing_renderArgs (inner : Nat) (s : Text) : ∀ args : List TypeTree,
    closing inner (renderArgs args ++ s)
      = (closing inner s).map fun p => (renderArgs args ++ p.1, p.2)
  | [] => by simp [renderArgs]
  | t :: ts => by
    rw [renderArgs, List.append_assoc, closing_render inner _ t, closing_renderArgs inner s ts,
      Option.map_map]
    congr 1
    funext p
    simp

end

/-- A bracket that is closed stays closed, whatever follows. -/
theorem closing_append {inner : Nat} {s args rest : Text}
    (h : closing inner s = some (args, rest)) (t : Text) :
    closing inner (s ++ t) = some (args, rest ++ t) := by
  induction s generalizing inner args with
  | nil => simp [closing] at h
  | cons c s ih =>
    rw [List.cons_append]
    unfold closing at h ⊢
    split
    · next hc =>
      rw [if_pos hc] at h
      obtain ⟨⟨args', rest'⟩, h', he⟩ := Option.map_eq_some_iff.1 h
      cases he
      rw [ih h']
      rfl
    · next hc =>
      rw [if_neg hc] at h
      split
      · next hc' =>
        rw [if_pos hc'] at h
        split at h
        · cases h
          rfl
        · obtain ⟨⟨args', rest'⟩, h', he⟩ := Option.map_eq_some_iff.1 h
          cases he
          simp only [ih h']
          rfl
      · next hc' =>
        rw [if_neg hc'] at h
        obtain ⟨⟨args', rest'⟩, h', he⟩ := Option.map_eq_some_iff.1 h
        cases he
        rw [ih h']
        rfl

/-- Arguments that are cut off do not close the bracket before them. -/
theorem closing_of_cut {args : List TypeTree} {s : Text} (h : s <+: renderArgs args) :
    closing 0 s = none := by
  cases hc : closing 0 s with
  | none => rfl
  | some p =>
    obtain ⟨t, ht⟩ := h
    have hwhole := closing_append hc t
    have hargs := closing_renderArgs 0 [] args
    rw [List.append_nil, ← ht, hwhole] at hargs
    cases hargs

theorem closing_args (args : List TypeTree) (s : Text) :
    closing 0 (renderArgs args ++ '>' :: s) = some (renderArgs args, s) := by
  rw [closing_renderArgs]
  simp [closing]

end ClassGraph.Reference
