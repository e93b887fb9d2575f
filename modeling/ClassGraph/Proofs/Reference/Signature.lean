/-
ClassGraph.Proofs.Reference.Signature — reading a line of types that may be
cut off.

The main statement, `mem_inLine_of_cut`, says exactly what is read of a line
of types that is cut off anywhere: the names that lie no deeper than the
deepest level and that have a `;` behind them before the line is cut off.

The induction is on the length of the text. The first type of a line is
opened, its arguments are a line of types one level deeper without text
between them, and the types that follow are a line on the same level; both
are cut off where the whole line is.
-/
import ClassGraph.Proofs.Reference.TypeTree

namespace ClassGraph.Reference

/-! ## §1 Opening arguments -/

/-- What stands before the arguments of a name. -/
def opening (name : TypeName) : Text := 'L' :: (name.text ++ ['<'])

theorem length_opening (name : TypeName) : (opening name).length = name.text.length + 2 := by
  simp [opening]

theorem end_not_mem_name (name : TypeName) : ';' ∉ 'L' :: name.text :=
  not_mem_of_isName (by decide) (isName_cons name.isName)

theorem end_not_mem_opening (name : TypeName) : ';' ∉ opening name := by
  have := end_not_mem_name name
  simpa [opening] using this

theorem isBodyChar_of_mem_opening {name : TypeName} {c : Char} (h : c ∈ opening name) :
    isBodyChar c = true := by
  rw [opening, ← List.cons_append] at h
  rcases List.mem_append.1 h with h | h
  · exact isBodyChar_of_mem (isName_cons name.isName) h
  · rw [List.mem_singleton.1 h]
    decide

/-- Up to its first `;`, a type consists of body characters. -/
theorem isBodyChar_of_mem_takeWhile_render {c : Char} : ∀ {t : TypeTree} {s : Text},
    c ∈ (t.render ++ s).takeWhile (· != ';') → isBodyChar c = true
  | .node name [], s, h => by
    have hcut : (TypeTree.node name []).render ++ s = ('L' :: name.text) ++ ';' :: s := by
      simp [render_leaf]
    rw [hcut, takeWhile_append_cons (end_not_mem_name name)] at h
    exact isBodyChar_of_mem (isName_cons name.isName) h
  | .node name (t :: ts), s, h => by
    have hcut : (TypeTree.node name (t :: ts)).render ++ s
        = opening name ++ (t.render ++ (renderArgs ts ++ ['>', ';'] ++ s)) := by
      simp [render_node, renderArgs, opening]
    rw [hcut, List.takeWhile_append_of_pos (ne_of_avoiding (end_not_mem_opening name))] at h
    rcases List.mem_append.1 h with h | h
    · exact isBodyChar_of_mem_opening h
    · exact isBodyChar_of_mem_takeWhile_render h

/-- A name that is followed by arguments, cut off behind a `;`, opens them. -/
theorem opens_args {name : TypeName} {args : List TypeTree} {s t : Text} (hargs : args ≠ [])
    (hs : s <+: renderArgs args ++ t) (hend : ';' ∈ s) : Opens name.text s where
  avoids := not_mem_of_isName (by decide) name.isName
  ends := hend
  begins := by
    obtain ⟨u, hu⟩ := hs
    cases s with
    | nil => simp at hend
    | cons c s =>
      cases args with
      | nil => exact absurd rfl hargs
      | cons first others =>
        obtain ⟨name', args'⟩ := first
        simp only [renderArgs, TypeTree.render, List.cons_append, List.cons.injEq] at hu
        exact ⟨s, by rw [hu.1]⟩
  isBody := by
    have hbody : ∀ c ∈ s.takeWhile (· != ';'), isBodyChar c = true := by
      intro c hc
      cases args with
      | nil => exact absurd rfl hargs
      | cons first others =>
        obtain ⟨u, hu⟩ := hs
        refine isBodyChar_of_mem_takeWhile_render (t := first) (s := renderArgs others ++ t) ?_
        rw [← List.append_assoc, ← renderArgs, ← hu, List.takeWhile_append]
        split
        · exact List.mem_append_left _ (List.takeWhile_subset _ hc)
        · exact hc
    have hall : ∀ c ∈ name.text ++ '<' :: s.takeWhile (· != ';'), isBodyChar c = true := by
      intro c hc
      rcases List.mem_append.1 hc with hc | hc
      · exact isBodyChar_of_mem name.isName hc
      · rcases List.mem_cons.1 hc with rfl | hc
        · decide
        · exact hbody c hc
    simp only [Reference.isBody, Bool.and_eq_true, List.all_eq_true]
    exact ⟨by simp, hall⟩

/-! ## §2 Names that are seen -/

/-- Some occurrence of `name` lies no deeper than `b`, with a `;` behind it in what is left of the
text. -/
def Seen (b : Nat) (text : Text) (os : List Occurrence) (name : Text) : Prop :=
  ∃ o ∈ os, o.name = name ∧ o.level ≤ b ∧ ';' ∈ text.drop o.start

section Seen

variable {b level start : Nat} {text name : Text} {os os' : List Occurrence}

theorem seen_cons {o : Occurrence} :
    Seen b text (o :: os) name ↔
      (o.name = name ∧ o.level ≤ b ∧ ';' ∈ text.drop o.start) ∨ Seen b text os name := by
  simp [Seen]

theorem seen_append :
    Seen b text (os ++ os') name ↔ Seen b text os name ∨ Seen b text os' name := by
  simp only [Seen, List.mem_append, or_and_right, exists_or]

/-- Text in front moves the names with it. -/
theorem seen_shift (u : Text) :
    Seen b (u ++ text) (os.map fun o => { o with start := o.start + u.length }) name
      ↔ Seen b text os name := by
  simp only [Seen, List.mem_map]
  constructor
  · rintro ⟨-, ⟨o, ho, rfl⟩, hname, hlevel, hend⟩
    refine ⟨o, ho, hname, hlevel, ?_⟩
    rwa [Nat.add_comm, ← List.drop_drop, List.drop_left] at hend
  · rintro ⟨o, ho, hname, hlevel, hend⟩
    refine ⟨_, ⟨o, ho, rfl⟩, hname, hlevel, ?_⟩
    rwa [Nat.add_comm, ← List.drop_drop, List.drop_left]

/-- Text behind shows nothing new of names that are seen to their end. -/
theorem seen_append_text (t : Text) (h : ∀ o ∈ os, ';' ∈ text.drop o.start) :
    Seen b (text ++ t) os name ↔ Seen b text os name := by
  refine exists_congr fun o => and_congr_right fun ho => and_congr_right fun _ =>
    and_congr_right fun _ => ?_
  rw [List.drop_append]
  simp [h o ho]

theorem not_seen_of_end_not_mem (h : ';' ∉ text) : ¬ Seen b text os name := by
  rintro ⟨o, -, -, -, hend⟩
  exact h (List.mem_of_mem_drop hend)

theorem occurrencesIn_start_le {s : Stretch} {o : Occurrence}
    (h : o ∈ occurrencesIn level start s) : start ≤ o.start := by
  induction s generalizing start with
  | nil => simp [occurrencesIn] at h
  | cons p rest ih =>
    obtain ⟨t, gap⟩ := p
    rw [occurrencesIn] at h
    rcases List.mem_append.1 h with h | h
    · exact (TypeTree.occurrence_bounds h).2.1
    · have := ih h
      omega

/-- Names behind the end of the text are not seen. -/
theorem not_seen_of_length_le {s : Stretch} (h : text.length ≤ start) :
    ¬ Seen b text (occurrencesIn level start s) name := by
  rintro ⟨o, ho, -, -, hend⟩
  have hstart := occurrencesIn_start_le ho
  rw [List.drop_eq_nil_of_le (by omega)] at hend
  simp at hend

theorem not_seen_of_level {args : List TypeTree} (h : b < level) :
    ¬ Seen b text (occurrencesInArgs level start args) name := by
  rintro ⟨o, ho, -, hlevel, -⟩
  have := (occurrence_bounds_args ho).1
  omega

end Seen

/-! ## §3 The first type of a line -/

/-- On the level `depth`, `text`, which is a line of types cut off, is read as the names that are
seen in it. -/
def ReadsAs (b depth : Nat) (s : Stretch) (text : Text) : Prop :=
  ∀ name, .reference name ∈ scan (some b) depth text
    ↔ Seen b text (occurrencesIn depth 0 s) name

/-- Every line of types that is shorter than `text` is read as it should be. -/
def ShorterRead (b : Nat) (text : Text) : Prop :=
  ∀ depth s u, depth ≤ b → Separated s → u <+: renderStretch s → u.length < text.length →
    ReadsAs b depth s u

section Step

variable {b depth : Nat} {lead text u gap : Text} {s rest : Stretch} {name : TypeName}
  {args : List TypeTree}

/-- Some text without an `L` may stand before a line of types. -/
theorem mem_scan_of_lead {n : Text}
    (hread : ∀ v, v <+: renderStretch s → v.length ≤ u.length → ReadsAs b depth s v)
    (hl : 'L' ∉ lead) (hu : u <+: lead ++ renderStretch s) :
    .reference n ∈ scan (some b) depth u ↔ Seen b u (occurrencesIn depth lead.length s) n := by
  rcases prefix_append_cases hu with hu | ⟨v, hv, rfl⟩
  · have hquiet : 'L' ∉ u := fun hm => hl (hu.subset hm)
    rw [scan_quiet hquiet]
    simp [not_seen_of_length_le hu.length_le]
  · have hshift := occurrencesIn_add depth 0 lead.length s
    rw [Nat.zero_add] at hshift
    rw [scan_lead_append hl, hread v hv (by simp) n, hshift, seen_shift]

/-- Arguments are read one level deeper, down to the bound. -/
theorem mem_inArguments {n : Text} (hread : ShorterRead b text) (hd : depth ≤ b)
    (hlt : u.length < text.length) (hu : u <+: renderArgs args) :
    .reference n ∈ inArguments (some b) depth u
      ↔ Seen b u (occurrencesInArgs (depth + 1) 0 args) n := by
  by_cases hdeep : depth < b
  · have hr : isRead (some b) depth = true := by simpa [isRead] using hdeep
    rw [← renderStretch_stretchOf] at hu
    rw [inArguments_of_read hr, ← occurrencesIn_stretchOf]
    exact hread (depth + 1) (stretchOf args) u hdeep (separated_stretchOf args) hu hlt n
  · have hr : isRead (some b) depth = false := by simpa [isRead] using hdeep
    rw [inArguments_of_deep hr]
    simp [not_seen_of_level (show b < depth + 1 by omega)]

/-- A line that begins with a name without arguments. -/
theorem readsAs_leaf (hread : ShorterRead b text) (hd : depth ≤ b)
    (hs : Separated ((.node name [], gap) :: rest)) (hend : ';' ∈ text)
    (ht : text <+: renderStretch ((.node name [], gap) :: rest)) :
    ReadsAs b depth ((.node name [], gap) :: rest) text := by
  intro n
  have hgap : 'L' ∉ gap := hs _ (List.mem_cons_self ..)
  have hrest : Separated rest := fun p hp => hs p (List.mem_cons_of_mem _ hp)
  have hwhole : renderStretch ((.node name [], gap) :: rest)
      = ('L' :: name.text) ++ ';' :: (gap ++ renderStretch rest) := by
    simp [renderStretch, render_leaf]
  rw [hwhole] at ht
  obtain ⟨u, hu, rfl⟩ := prefix_append_cons_of_mem (end_not_mem_name name) hend ht
  have hlt : u.length < (('L' :: name.text) ++ ';' :: u).length := by
    simp only [List.length_append, List.length_cons]
    omega
  have hafter : ∀ v, v <+: renderStretch rest → v.length ≤ u.length → ReadsAs b depth rest v :=
    fun v hv hle => hread depth rest v hd hrest hv (by omega)
  have hscan : scan (some b) depth ([] ++ 'L' :: (name.text ++ ';' :: u))
      = .reference name.text :: scan (some b) depth u :=
    scan_plain (by simp) (isBody_of_isName name.isName) (argumentsOf?_of_isName name.isName)
  -- the names that follow, with what has been read in front of them
  have hfront : ('L' :: name.text) ++ ';' :: u = ('L' :: name.text ++ [';']) ++ u := by simp
  have hlater := occurrencesIn_add depth gap.length ('L' :: name.text ++ [';']).length rest
  have hstart : 0 + (TypeTree.node name []).render.length + gap.length
      = gap.length + ('L' :: name.text ++ [';']).length := by
    rw [render_leaf]
    simp only [List.cons_append]
    omega
  rw [occurrencesIn, seen_append, hstart, hlater]
  conv => rhs; rhs; rw [hfront]
  rw [seen_shift, ← mem_scan_of_lead hafter hgap hu]
  rw [List.nil_append] at hscan
  rw [List.cons_append, hscan, TypeTree.occurrences, occurrencesInArgs, seen_cons]
  simp [Seen, hd, eq_comm]

theorem reference_mem_sighted_name {n : Text} :
    .reference n ∈ sighted name.text ↔ name.text = n := by
  rw [reference_mem_sighted]
  simp [ne_nil_of_isName name.isName, eq_comm]

/-- What a name with arguments that are cut off is read as. -/
theorem mem_scan_cut {bound : Option Nat} {n : Text} (ho : Opens name.text u)
    (hc : closing 0 u = none) :
    .reference n ∈ scan bound depth (opening name ++ u)
      ↔ name.text = n ∨ .reference n ∈ inArguments bound depth u := by
  have htext : opening name ++ u = [] ++ 'L' :: (name.text ++ '<' :: u) := by simp [opening]
  rw [htext, scan_open (by simp) ho hc, List.mem_append, reference_mem_sighted_name]

/-- What a name with all its arguments is read as. -/
theorem mem_scan_whole {bound : Option Nat} {n inside later : Text} (ho : Opens name.text u)
    (hc : closing 0 u = some (inside, later)) :
    .reference n ∈ scan bound depth (opening name ++ u)
      ↔ (name.text = n ∨ .reference n ∈ inArguments bound depth inside)
        ∨ .reference n ∈ scan bound depth later := by
  have htext : opening name ++ u = [] ++ 'L' :: (name.text ++ '<' :: u) := by simp [opening]
  rw [htext, scan_closed (by simp) ho hc, List.mem_append, List.mem_append,
    reference_mem_sighted_name]

/-- What is seen of a name with arguments. -/
theorem seen_node {n : Text} (hd : depth ≤ b) (hend : ';' ∈ u) :
    Seen b (opening name ++ u) ((TypeTree.node name args).occurrences depth 0) n
      ↔ name.text = n ∨ Seen b u (occurrencesInArgs (depth + 1) 0 args) n := by
  have hinside := occurrencesInArgs_add (depth + 1) 0 (opening name).length args
  have hstart : 0 + name.text.length + 2 = 0 + (opening name).length := by
    rw [length_opening]
    omega
  rw [TypeTree.occurrences, seen_cons, hstart, hinside, seen_shift]
  simp [hd, hend]

/-- Where the line is cut off inside the arguments of a name, the types that follow are not seen. -/
theorem mem_scan_node_cut {n : Text} (hread : ShorterRead b (opening name ++ u)) (hd : depth ≤ b)
    (hargs : args ≠ []) (ho : Opens name.text u) (hcut : u <+: renderArgs args) :
    .reference n ∈ scan (some b) depth (opening name ++ u) ↔
      (name.text = n ∨ Seen b u (occurrencesInArgs (depth + 1) 0 args) n) ∨
        Seen b (opening name ++ u) (occurrencesIn depth
          (0 + (TypeTree.node name args).render.length + gap.length) rest) n := by
  have hlen : (opening name ++ u).length = u.length + name.text.length + 2 := by
    rw [List.length_append, length_opening]
    omega
  have hlater : ¬ Seen b (opening name ++ u) (occurrencesIn depth
      (0 + (TypeTree.node name args).render.length + gap.length) rest) n := by
    refine not_seen_of_length_le ?_
    have := hcut.length_le
    rw [hlen, render_node hargs]
    simp only [List.length_append, List.length_cons]
    omega
  rw [or_iff_left hlater, mem_scan_cut ho (closing_of_cut hcut),
    mem_inArguments hread hd (by omega) hcut]

/-- Where the arguments of a name are all there, reading goes on behind their bracket. -/
theorem mem_scan_node_whole {n w : Text}
    (hread : ShorterRead b (opening name ++ (renderArgs args ++ '>' :: w))) (hd : depth ≤ b)
    (hargs : args ≠ []) (hgap : 'L' ∉ gap) (hrest : Separated rest)
    (ho : Opens name.text (renderArgs args ++ '>' :: w))
    (hw : w <+: (';' :: gap) ++ renderStretch rest) :
    .reference n ∈ scan (some b) depth (opening name ++ (renderArgs args ++ '>' :: w)) ↔
      (name.text = n ∨
          Seen b (renderArgs args ++ '>' :: w) (occurrencesInArgs (depth + 1) 0 args) n) ∨
        Seen b (opening name ++ (renderArgs args ++ '>' :: w)) (occurrencesIn depth
          (0 + (TypeTree.node name args).render.length + gap.length) rest) n := by
  have hlen : (opening name ++ (renderArgs args ++ '>' :: w)).length
      = (renderArgs args).length + w.length + name.text.length + 3 := by
    simp only [List.length_append, List.length_cons, length_opening]
    omega
  have hgap' : 'L' ∉ ';' :: gap := by simpa using hgap
  have hlater := occurrencesIn_add depth (';' :: gap).length
    (opening name ++ (renderArgs args ++ ['>'])).length rest
  have hstart : 0 + (TypeTree.node name args).render.length + gap.length
      = (';' :: gap).length + (opening name ++ (renderArgs args ++ ['>'])).length := by
    simp only [render_node hargs, opening, List.length_append, List.length_cons,
      List.length_nil]
    omega
  have hfront : opening name ++ (renderArgs args ++ '>' :: w)
      = (opening name ++ (renderArgs args ++ ['>'])) ++ w := by simp
  have hinside : Seen b (renderArgs args ++ '>' :: w) (occurrencesInArgs (depth + 1) 0 args) n
      ↔ Seen b (renderArgs args) (occurrencesInArgs (depth + 1) 0 args) n :=
    seen_append_text ('>' :: w) fun o ho => end_mem_drop_args ho
  have hafter : ∀ v, v <+: renderStretch rest → v.length ≤ w.length → ReadsAs b depth rest v :=
    fun v hv hle => hread depth rest v hd hrest hv (by omega)
  rw [mem_scan_whole ho (closing_args args w),
    mem_inArguments hread hd (by omega) (List.prefix_refl _),
    mem_scan_of_lead hafter hgap' hw, hinside, hstart, hlater]
  conv => rhs; rhs; rw [hfront]
  rw [seen_shift]

/-- A line that begins with a name with arguments. -/
theorem readsAs_node (hread : ShorterRead b text) (hd : depth ≤ b) (hargs : args ≠ [])
    (hs : Separated ((.node name args, gap) :: rest)) (hend : ';' ∈ text)
    (ht : text <+: renderStretch ((.node name args, gap) :: rest)) :
    ReadsAs b depth ((.node name args, gap) :: rest) text := by
  intro n
  have hgap : 'L' ∉ gap := hs _ (List.mem_cons_self ..)
  have hrest : Separated rest := fun p hp => hs p (List.mem_cons_of_mem _ hp)
  have hwhole : renderStretch ((.node name args, gap) :: rest)
      = opening name ++ (renderArgs args ++ '>' :: ((';' :: gap) ++ renderStretch rest)) := by
    simp [renderStretch, render_node hargs, opening]
  rw [hwhole] at ht
  rcases prefix_append_cases ht with h | ⟨u, hu, rfl⟩
  · exact absurd (h.subset hend) (end_not_mem_opening name)
  have hend' : ';' ∈ u := (List.mem_append.1 hend).resolve_left (end_not_mem_opening name)
  have ho : Opens name.text u := opens_args hargs hu hend'
  rw [occurrencesIn, seen_append, seen_node hd hend']
  by_cases hcut : u <+: renderArgs args
  · exact mem_scan_node_cut hread hd hargs ho hcut
  · rcases prefix_append_cases hu with h | ⟨v, hv, rfl⟩
    · exact absurd h hcut
    rcases List.prefix_cons_iff.1 hv with rfl | ⟨w, rfl, hw⟩
    · exact absurd (by simp) hcut
    exact mem_scan_node_whole hread hd hargs hgap hrest ho hw

end Step

/-! ## §4 Lines that are cut off -/

/-- Every line of types, cut off anywhere, is read as the names that are seen in it. -/
theorem readsAs_of_cut {b depth : Nat} {s : Stretch} {text : Text} (hd : depth ≤ b)
    (hs : Separated s) (ht : text <+: renderStretch s) : ReadsAs b depth s text := by
  have hread : ShorterRead b text := fun depth s u hd hs hu _ => readsAs_of_cut hd hs hu
  by_cases hend : ';' ∈ text
  · cases s with
    | nil =>
      rw [renderStretch, List.prefix_nil] at ht
      simp [ht] at hend
    | cons p rest =>
      obtain ⟨⟨name, args⟩, gap⟩ := p
      by_cases hargs : args = []
      · subst hargs
        exact readsAs_leaf hread hd hs hend ht
      · exact readsAs_node hread hd hargs hs hend ht
  · intro n
    have hnone : ¬ Seen b text (occurrencesIn depth 0 s) n := not_seen_of_end_not_mem hend
    rw [iff_false_right hnone]
    by_cases hL : 'L' ∈ text
    · obtain ⟨lead, tail, rfl, hl⟩ := List.eq_append_cons_of_mem hL
      have htail : ';' ∉ tail := fun hm => hend (by simp [hm])
      simp [scan_unended hl htail]
    · simp [scan_quiet hL]
termination_by text.length

/-- Where the first `;` from a position on stands in a line, or the end of the line. -/
def firstEnd (line : Text) (start : Nat) : Nat := start + (line.drop start).idxOf ';'

theorem firstEnd_lt_iff {line p : Text} (h : p <+: line) (start : Nat) :
    firstEnd line start < p.length ↔ ';' ∈ p.drop start := by
  obtain ⟨t, rfl⟩ := h
  have hlen : (p.drop start).length = p.length - start := List.length_drop
  rw [firstEnd, List.drop_append, List.idxOf_append]
  split
  · next hm =>
    have := List.idxOf_lt_length_of_mem hm
    simp only [hm, iff_true]
    omega
  · next hm =>
    simp only [hm, iff_false]
    omega

/-- **A line of types is read exactly**, wherever it is cut off: what is found are the names no
deeper than the deepest level whose first `;` comes before the cut. -/
theorem mem_inLine_of_cut {lead p : Text} {s : Stretch} (hl : 'L' ∉ lead) (hs : Separated s)
    (hp : p <+: lead ++ renderStretch s) (n : Text) :
    n ∈ (inLine p).keys ↔
      ∃ o ∈ occurrencesIn 0 lead.length s, o.name = n ∧ o.level ≤ maxDepth ∧
        firstEnd (lead ++ renderStretch s) o.start < p.length := by
  have hread : ∀ v, v <+: renderStretch s → v.length ≤ p.length → ReadsAs maxDepth 0 s v :=
    fun v hv _ => readsAs_of_cut (Nat.zero_le _) hs hv
  rw [mem_inLine, sightings, mem_scan_of_lead hread hl hp]
  simp only [Seen, firstEnd_lt_iff hp]

/-- A type with two arguments, `LB<LI;LK;>;`. -/
def pairType : TypeTree :=
  .node ⟨['B'], by decide⟩ [.node ⟨['I'], by decide⟩ [], .node ⟨['K'], by decide⟩ []]

/-- Cut off inside its second argument, the type still shows its name and the first one. -/
theorem mem_inLine_pairType :
    ['B'] ∈ (inLine [' ', 'L', 'B', '<', 'L', 'I', ';', 'L', 'K']).keys ∧
      ['I'] ∈ (inLine [' ', 'L', 'B', '<', 'L', 'I', ';', 'L', 'K']).keys ∧
      ['K'] ∉ (inLine [' ', 'L', 'B', '<', 'L', 'I', ';', 'L', 'K']).keys := by
  have hseparated : Separated [(pairType, [])] := by
    intro p hp
    rw [List.mem_singleton.1 hp]
    simp
  have hlead : 'L' ∉ [' '] := by decide
  have hcut : [' ', 'L', 'B', '<', 'L', 'I', ';', 'L', 'K']
      <+: [' '] ++ renderStretch [(pairType, [])] := by decide
  rw [mem_inLine_of_cut hlead hseparated hcut, mem_inLine_of_cut hlead hseparated hcut,
    mem_inLine_of_cut hlead hseparated hcut]
  decide

end ClassGraph.Reference
