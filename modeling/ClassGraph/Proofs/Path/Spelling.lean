/-
ClassGraph.Proofs.Path.Spelling — how much of its spelling a path keeps below
a root.

Two spellings of a path have the same components, and those alone decide
whether it lies below a root. The text that is left below the root keeps its
segments as they were written, but for the idle ones at either end. So of all
that may differ between two spellings, what remains are empty segments and
lone dots between two names; `written` leaves out the empty ones, and
`dotsBelow` marks the dots among the rest. The main statements:

  * `written_below` — what is left of a path below a root;
  * `eq_of_names_of_dots` — the marks tell apart what the components do not;
  * `dotsBelow_of_separators` — without lone dots there is nothing to mark.
-/
import Mathlib.Data.List.Basic
import ClassGraph.Proofs.Path.Below

namespace ClassGraph.Path

variable {root p q rest : Path} {s : Segment} {segments idle wanted left u v : List Segment}

/-! ## §1 Components -/

theorem isIdle_dot : isIdle dot = true := rfl

theorem slash_not_mem_opening (p : Path) : ∀ s ∈ (opening p).2, slash ∉ s := by
  unfold opening
  split
  · simp
  · next b rest =>
    split
    · exact fun s hs => not_mem_of_mem_cut hs
    · split
      · simp
      · next first others hcut =>
        have hall : ∀ s ∈ first :: others, slash ∉ s := fun s hs =>
          not_mem_of_mem_cut (hcut ▸ hs)
        split
        · exact fun s hs => hall s (List.mem_cons_of_mem _ hs)
        · exact hall

/-- A path opens at the root, with a lone dot, or without either. -/
theorem opening_cases (p : Path) :
    (opening p).1 = none ∨ (opening p).1 = some .root ∨ (opening p).1 = some .here := by
  unfold opening
  split
  · exact .inl rfl
  · split
    · exact .inr (.inl rfl)
    · split
      · exact .inl rfl
      · split
        · exact .inr (.inr rfl)
        · exact .inl rfl

/-- Components tell how a path opens and which names follow. -/
theorem opening_eq_of_components (h : components p = components q) :
    (opening p).1 = (opening q).1 ∧ names (opening p).2 = names (opening q).2 := by
  have hinj : Function.Injective (List.map Component.named) :=
    List.map_injective_iff.2 fun a b hab => Component.named.inj hab
  have hnamed : ∀ (c : Component) (l l' : List Segment), (∀ s, c ≠ .named s) →
      l.map Component.named ≠ c :: l'.map Component.named := by
    intro c l l' hc he
    cases l with
    | nil => cases he
    | cons s l => exact hc s (List.cons_eq_cons.1 he).1.symm
  unfold components at h
  rcases opening_cases p with hp | hp | hp <;> rcases opening_cases q with hq | hq | hq <;>
    rw [hp, hq] at h ⊢
  all_goals first
    | exact ⟨rfl, hinj (by simpa using h)⟩
    | exact absurd h (hnamed _ _ _ (by simp))
    | exact absurd h.symm (hnamed _ _ _ (by simp))
    | cases h

/-! ## §2 Reading names off the front -/

theorem names_of_isIdle (h : ∀ s ∈ segments, isIdle s = true) : names segments = [] :=
  List.filter_eq_nil_iff.2 fun s hs => by simp [h s hs]

theorem isIdle_eq_false_of_mem_names (h : s ∈ names segments) : isIdle s = false := by
  simpa [names] using (List.mem_filter.1 h).2

/-- What follows the names that are read off ends the segments, and holds the names that are left. -/
theorem after_eq_some (hw : ∀ w ∈ wanted, isIdle w = false)
    (h : after wanted segments = some left) :
    names segments = wanted ++ names left ∧ left <:+ segments := by
  fun_induction after wanted segments with
  | case1 segments =>
    cases h
    exact ⟨rfl, List.suffix_refl _⟩
  | case2 => cases h
  | case3 w ws s segments hs ih =>
    obtain ⟨hnames, hsuffix⟩ := ih hw h
    refine ⟨?_, hsuffix.trans (List.suffix_cons s segments)⟩
    rw [← hnames, names, List.filter_cons_of_neg (by simp [hs])]
    rfl
  | case4 ws s segments hs ih =>
    obtain ⟨hnames, hsuffix⟩ := ih (fun w hw' => hw w (List.mem_cons_of_mem _ hw')) h
    refine ⟨?_, hsuffix.trans (List.suffix_cons s segments)⟩
    rw [List.cons_append, ← hnames, names, List.filter_cons_of_pos (by simp [hs])]
    rfl
  | case5 => cases h

theorem names_dropIdleStart (segments : List Segment) :
    names (dropIdleStart segments) = names segments := by
  conv => rhs; rw [← List.takeWhile_append_dropWhile (p := isIdle) (l := segments)]
  have hidle : ∀ s ∈ segments.takeWhile isIdle, isIdle s = true := fun s hs => of_mem_takeWhile hs
  rw [names_append, names_of_isIdle hidle, List.nil_append]
  rfl

/-- The idle segments at the end follow the others. -/
theorem dropIdleEnd_append (segments : List Segment) :
    ∃ idle, (∀ s ∈ idle, isIdle s = true) ∧ segments = dropIdleEnd segments ++ idle := by
  refine ⟨(segments.reverse.takeWhile isIdle).reverse, fun s hs => ?_, ?_⟩
  · exact of_mem_takeWhile (List.mem_reverse.1 hs)
  · rw [dropIdleEnd, ← List.reverse_append, List.takeWhile_append_dropWhile, List.reverse_reverse]

theorem names_dropIdleEnd (segments : List Segment) :
    names (dropIdleEnd segments) = names segments := by
  obtain ⟨idle, hidle, hwhole⟩ := dropIdleEnd_append segments
  conv => rhs; rw [hwhole, names_append, names_of_isIdle hidle, List.append_nil]

theorem isIdle_of_getLast?_dropIdleEnd (h : s ∈ (dropIdleEnd segments).getLast?) :
    isIdle s = false := by
  rw [dropIdleEnd, List.getLast?_reverse, Option.mem_def] at h
  cases hd : segments.reverse.dropWhile isIdle with
  | nil =>
    rw [hd] at h
    cases h
  | cons t others =>
    have hhead := List.head_dropWhile_not isIdle (l := segments.reverse) (by simp [hd])
    rw [hd] at h
    cases h
    simpa [hd] using hhead

/-! ## §3 What is left below a root -/

/-- The segments that a path is written with, but for the empty ones. -/
def written (p : Path) : List Segment := (cut slash p).filter fun s => !s.isEmpty

theorem names_filter_written (segments : List Segment) :
    names (segments.filter fun s => !s.isEmpty) = names segments := by
  rw [names, names, List.filter_filter]
  refine List.filter_congr fun s _ => ?_
  cases hs : s.isEmpty <;> simp [isIdle, hs]

theorem written_join (h : ∀ s ∈ segments, slash ∉ s) :
    written (join [slash] segments) = segments.filter fun s => !s.isEmpty := by
  by_cases hne : segments = []
  · subst hne
    rfl
  · rw [written, cut_join hne h]

theorem written_slash_cons (p : Path) : written (slash :: p) = written p := by
  rw [written, cut_cons_sep]
  rfl

/-- A lone dot that opens a path and stays in front where nothing is taken off. -/
def openingDot (root p : Path) : List Segment :=
  if ((opening root).1 = none ∧ names (opening root).2 = []) ∧ (opening p).1 = some .here then [dot]
  else []

/-- Segments that end with a name, or are none. -/
def EndsNamed (segments : List Segment) : Prop := ∀ s ∈ segments.getLast?, isIdle s = false

theorem endsNamed_dropIdleEnd (segments : List Segment) : EndsNamed (dropIdleEnd segments) :=
  fun _ hs => isIdle_of_getLast?_dropIdleEnd hs

theorem ne_nil_of_isIdle_eq_false (h : isIdle s = false) : s ≠ [] := by
  rintro rfl
  cases h

theorem mem_of_mem_dropIdleEnd (h : s ∈ dropIdleEnd segments) : s ∈ segments := by
  obtain ⟨idle, -, hwhole⟩ := dropIdleEnd_append segments
  rw [hwhole]
  exact List.mem_append_left _ h

/-- A path that is joined from segments ends as the last of them does. -/
theorem getLast?_join (h : ∀ s ∈ segments, slash ∉ s) (hend : ∀ s ∈ segments.getLast?, s ≠ []) :
    (join [slash] segments).getLast? ≠ some slash := by
  rcases List.eq_nil_or_concat' segments with rfl | ⟨others, last, rfl⟩
  · simp
  · have hslash : slash ∉ last := h last (by simp)
    have hsplit := join_append_last [slash] others [] last
    rw [List.nil_append] at hsplit
    rw [← hsplit, List.getLast?_append_of_ne_nil _ (hend last (by simp))]
    exact fun he => hslash (List.mem_of_getLast? he)

/-- The segments of a path that is only trimmed: the dot that opens it and what follows. -/
theorem written_trimmed (p : Path) :
    written (trimmed p) = (if (opening p).1 = some .here then [dot] else [])
      ++ (dropIdleEnd (opening p).2).filter fun s => !s.isEmpty := by
  have hfree : ∀ s ∈ dropIdleEnd (opening p).2, slash ∉ s := fun s hs =>
    slash_not_mem_opening p s (mem_of_mem_dropIdleEnd hs)
  unfold trimmed
  split
  · next segments hp =>
    rw [hp] at hfree ⊢
    rw [written_slash_cons, written_join hfree]
    rfl
  · next segments hp =>
    rw [hp] at hfree ⊢
    rw [written_join (List.forall_mem_cons.2 ⟨by decide, hfree⟩)]
    rfl
  · next start segments _ hhere hp =>
    rw [hp] at hfree ⊢
    rw [written_join hfree, if_neg hhere]
    rfl

theorem getLast?_trimmed (h : (trimmed p).getLast? = some slash) : trimmed p = [slash] := by
  have hfree : ∀ s ∈ dropIdleEnd (opening p).2, slash ∉ s := fun s hs =>
    slash_not_mem_opening p s (mem_of_mem_dropIdleEnd hs)
  have hend : ∀ s ∈ (dropIdleEnd (opening p).2).getLast?, s ≠ [] := fun s hs =>
    ne_nil_of_isIdle_eq_false (isIdle_of_getLast?_dropIdleEnd hs)
  revert h
  unfold trimmed
  split
  · next segments hp =>
    rw [hp] at hfree hend
    intro h
    rw [List.getLast?_cons] at h
    cases hlast : (join [slash] (dropIdleEnd segments)).getLast? with
    | none => rw [List.getLast?_eq_none_iff.1 hlast]
    | some b =>
      rw [hlast] at h
      cases h
      exact absurd hlast (getLast?_join hfree hend)
  · next segments hp =>
    rw [hp] at hfree hend
    intro h
    refine absurd h (getLast?_join (List.forall_mem_cons.2 ⟨by decide, hfree⟩) fun s hs => ?_)
    rw [List.getLast?_cons, Option.mem_def] at hs
    cases hlast : (dropIdleEnd segments).getLast? with
    | none =>
      rw [hlast] at hs
      cases hs
      decide
    | some t =>
      rw [hlast] at hs
      cases hs
      exact hend _ hlast
  · next start segments _ hhere hp =>
    rw [hp] at hfree hend
    exact fun h => absurd h (getLast?_join hfree hend)

/-- What a path below a root is written with there: segments of its own, ending with a name, whose
names are those that the root leaves. -/
theorem written_below (h : below? root p = some rest) :
    ∃ segments, written rest = openingDot root p ++ segments.filter (fun s => !s.isEmpty) ∧
      segments ⊆ (opening p).2 ∧ EndsNamed segments ∧
      names (opening p).2 = names (opening root).2 ++ names segments ∧
      (rest.getLast? = some slash → rest = [slash]) := by
  simp only [below?] at h
  split at h
  · next hroot =>
    cases h
    refine ⟨dropIdleEnd (opening p).2, ?_, fun s => mem_of_mem_dropIdleEnd,
      endsNamed_dropIdleEnd _, ?_, getLast?_trimmed⟩
    · rw [written_trimmed, openingDot]
      simp only [hroot, and_self, true_and]
    · rw [hroot.2, names_dropIdleEnd, List.nil_append]
  · next hroot =>
    split at h
    · obtain ⟨left, hleft, hrest⟩ := Option.map_eq_some_iff.1 h
      obtain ⟨hnames, hsuffix⟩ := after_eq_some (fun w hw => isIdle_eq_false_of_mem_names hw) hleft
      have hsub : dropIdleEnd (dropIdleStart left) ⊆ (opening p).2 := fun s hs =>
        hsuffix.subset ((List.dropWhile_sublist isIdle).subset (mem_of_mem_dropIdleEnd hs))
      have hfree : ∀ s ∈ dropIdleEnd (dropIdleStart left), slash ∉ s := fun s hs =>
        slash_not_mem_opening p s (hsub hs)
      have hend := endsNamed_dropIdleEnd (dropIdleStart left)
      refine ⟨dropIdleEnd (dropIdleStart left), ?_, hsub, hend, ?_, ?_⟩
      · rw [← hrest, written_join hfree, openingDot, if_neg fun hboth => hroot hboth.1,
          List.nil_append]
      · rw [names_dropIdleEnd, names_dropIdleStart, hnames]
      · rw [← hrest]
        intro hlast
        exact absurd hlast
          (getLast?_join hfree fun s hs => ne_nil_of_isIdle_eq_false (hend s hs))
    · cases h

/-! ## §4 Two spellings -/

theorem below?_isSome_iff (root p : Path) :
    (below? root p).isSome = true ↔ ((opening root).1 = none ∧ names (opening root).2 = []) ∨
      ((opening root).1 = (opening p).1 ∧ names (opening root).2 <+: names (opening p).2) := by
  have hafter := after_isSome_iff (names (opening root).2) (opening p).2
    fun w hw => isIdle_eq_false_of_mem_names hw
  simp only [below?]
  split
  · next hroot => simp [hroot]
  · next hroot =>
    split
    · next hstart =>
      rw [Option.isSome_map, hafter]
      exact ⟨fun hprefix => .inr ⟨hstart, hprefix⟩, fun h => (h.resolve_left hroot).2⟩
    · next hstart => simp [hroot, hstart]

/-- Components decide whether a path lies below a root. -/
theorem below?_eq_none_iff (h : components p = components q) :
    below? root p = none ↔ below? root q = none := by
  obtain ⟨hstart, hnames⟩ := opening_eq_of_components h
  rw [← Option.not_isSome_iff_eq_none, ← Option.not_isSome_iff_eq_none, below?_isSome_iff,
    below?_isSome_iff, hstart, hnames]

theorem names_written_below (h : below? root p = some rest) :
    names (opening p).2 = names (opening root).2 ++ names (written rest) := by
  obtain ⟨segments, hwritten, -, -, hnames, -⟩ := written_below h
  have hdot : names (openingDot root p) = [] := names_of_isIdle fun s hs => by
    unfold openingDot at hs
    split at hs
    · rw [List.mem_singleton.1 hs]
      exact isIdle_dot
    · cases hs
  rw [hwritten, names_append, hdot, List.nil_append, names_filter_written, hnames]

/-- Components decide which names a path has below a root. -/
theorem names_written_eq {rest' : Path} (h : components p = components q)
    (hp : below? root p = some rest) (hq : below? root q = some rest') :
    names (written rest) = names (written rest') := by
  have hnames := (opening_eq_of_components h).2
  rw [names_written_below hp, names_written_below hq] at hnames
  exact List.append_cancel_left hnames

/-- Which of the segments that a path keeps below a root are lone dots. -/
def dotsBelow (root p : Path) : List Bool :=
  match below? root p with
  | some rest => (written rest).map (· == dot)
  | none => []

/-- Segments are told by their names and by where dots stand among them. -/
theorem eq_of_names_of_dots (hu : ∀ s ∈ u, s ≠ []) (hv : ∀ s ∈ v, s ≠ [])
    (hnames : names u = names v) (hdots : u.map (· == dot) = v.map (· == dot)) : u = v := by
  induction u generalizing v with
  | nil =>
    cases v with
    | nil => rfl
    | cons => cases hdots
  | cons s u ih =>
    cases v with
    | nil => cases hdots
    | cons t v =>
      obtain ⟨hs, hu⟩ := List.forall_mem_cons.1 hu
      obtain ⟨ht, hv⟩ := List.forall_mem_cons.1 hv
      obtain ⟨hfirst, hdots⟩ := List.cons_eq_cons.1 hdots
      by_cases hdot : s = dot
      · have hdot' : t = dot := by simpa [hdot] using hfirst.symm
        rw [hdot, hdot'] at hnames
        rw [hdot, hdot', ih hu hv hnames hdots]
      · have hdot' : t ≠ dot := by simpa [hdot] using hfirst.symm
        have hsName : isIdle s = false := by simp [isIdle, hs, hdot]
        have htName : isIdle t = false := by simp [isIdle, ht, hdot']
        have hcons : s :: names u = t :: names v := by
          simpa [names, hsName, htName] using hnames
        obtain ⟨hst, hrest⟩ := List.cons_eq_cons.1 hcons
        rw [hst, ih hu hv hrest hdots]

theorem filter_eq_names (h : dot ∉ segments) :
    (segments.filter fun s => !s.isEmpty) = names segments := by
  refine List.filter_congr fun s hs => ?_
  have hne : s ≠ dot := fun e => h (e ▸ hs)
  simp [isIdle, hne]

/-- Spellings without lone dots after the first position differ in separators only. -/
theorem dotsBelow_of_separators (h : components p = components q) (hp : dot ∉ (opening p).2)
    (hq : dot ∉ (opening q).2) : dotsBelow root p = dotsBelow root q := by
  have hplain : ∀ {p rest}, dot ∉ (opening p).2 → below? root p = some rest →
      written rest = openingDot root p ++ names (written rest) := by
    intro p rest hp hrest
    obtain ⟨segments, hwritten, hsub, -, hnames, -⟩ := written_below hrest
    have hcancel := List.append_cancel_left ((names_written_below hrest).symm.trans hnames)
    rw [hcancel, ← filter_eq_names fun hm => hp (hsub hm), hwritten]
  unfold dotsBelow
  cases hrest : below? root p with
  | none => rw [(below?_eq_none_iff h).1 hrest]
  | some rest =>
    cases hrest' : below? root q with
    | none =>
      rw [(below?_eq_none_iff h).2 hrest'] at hrest
      cases hrest
    | some rest' =>
      have hdot : openingDot root p = openingDot root q := by
        rw [openingDot, openingDot, (opening_eq_of_components h).1]
      simp only
      rw [hplain hp hrest, hplain hq hrest', hdot, names_written_eq h hrest hrest']

end ClassGraph.Path
