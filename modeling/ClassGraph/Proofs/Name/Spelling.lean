/-
ClassGraph.Proofs.Name.Spelling — the class names of two spellings of a path.

A path is put below a root by its components, but the name is made from the
text that is left there. Empty segments are left out of a name and lone dots
are not, so of two spellings with the same components both have the same name,
or fail alike, where they leave the same dots: `spelledAlike`. Spellings that
differ in separators do; `innerDot_named_apart` is a path that is named
otherwise for a lone dot between two of its directories.
-/
import Mathlib.Data.Set.List
import ClassGraph.Proofs.Name.Reached
import ClassGraph.Proofs.Path.Spelling
import ClassGraph.Proofs.Text.Strict

namespace ClassGraph

/-- The same kind of error, about another path. -/
def NamingError.about (path : Path) : NamingError → NamingError
  | .outsideRoot _ root => .outsideRoot path root
  | .notText _ => .notText path
  | .notSource _ => .notSource path
  | .empty _ => .empty path

variable {root p q rest rest' : Path} {s t stem last : Text} {parts parts' init : List Text}

/-! ## §1 Paths that are text -/

namespace Path

/-- A path that some text is written as. -/
def IsText (p : Path) : Prop := ∃ s, ofText s = p

theorem isText_iff_names : IsText rest ↔ ∀ s ∈ names (written rest), IsText s := by
  constructor
  · rintro ⟨s, rfl⟩ segment hs
    have hcut := List.mem_of_mem_filter (List.mem_of_mem_filter hs)
    rw [cut_ofText] at hcut
    obtain ⟨part, -, hpart⟩ := List.mem_map.1 hcut
    exact ⟨part, hpart⟩
  · intro h
    have hall : ∀ segment ∈ cut slash rest, segment ∈ Set.range ofText := by
      intro segment hs
      by_cases hempty : segment = []
      · exact ⟨[], hempty.symm⟩
      by_cases hdot : segment = dot
      · exact ⟨['.'], hdot.symm⟩
      · refine h segment (List.mem_filter.2 ⟨List.mem_filter.2 ⟨hs, ?_⟩, ?_⟩)
        · simpa using hempty
        · simp [isIdle, hempty, hdot]
    obtain ⟨texts, htexts⟩ : cut slash rest ∈ Set.range (List.map ofText) := by
      rwa [Set.range_list_map]
    refine ⟨join ['/'] texts, ?_⟩
    rw [ofText_join, htexts, join_cut]

theorem ne_nil_of_mem_map (h : ∀ part ∈ parts, part ≠ []) : ∀ s ∈ parts.map ofText, s ≠ [] := by
  intro s hs
  obtain ⟨part, hpart, rfl⟩ := List.mem_map.1 hs
  have hempty := Utf8.isEmpty_encode part
  rw [List.isEmpty_eq_false_iff.2 (h part hpart)] at hempty
  exact List.isEmpty_eq_false_iff.1 hempty

/-- Text is written with the parts between its slashes. -/
theorem written_ofText (s : Text) :
    written (ofText s) = ((cut '/' s).filter fun part => !part.isEmpty).map ofText := by
  rw [written, cut_ofText, List.filter_map]
  congr 2
  funext part
  exact congrArg not (Utf8.isEmpty_encode part)

end Path

namespace Name

open ClassGraph.Path

/-! ## §2 Names by parts -/

/-- What the last part says before the ending of class files. -/
def lastStem? (parts : List Text) : Option Text :=
  parts.getLast?.bind (dropEnding? sourceEnding)

/-- The segments of a name: all but the last part, and what the last one says. -/
def segmentsOf (parts : List Text) (stem : Text) : List Text :=
  (parts.dropLast ++ [stem]).filter fun s => !s.isEmpty

/-- The name that the parts of a path spell. -/
def ofParts? (path : Path) (parts : List Text) : Except NamingError Name :=
  match lastStem? parts with
  | none => .error (.notSource path)
  | some stem =>
    if (join ['.'] (segmentsOf parts stem)).isEmpty then .error (.empty path)
    else .ok (join ['.'] (segmentsOf parts stem))

theorem ofParts?_about (p q : Path) (parts : List Text) :
    ofParts? q parts = (ofParts? p parts).mapError (·.about q) := by
  unfold ofParts?
  split
  · rfl
  · split <;> rfl

/-- Whether a file is no class file shows in its last part; only an empty name has other reasons. -/
theorem ofParts?_eq_error {e : NamingError} (h : ofParts? p parts = .error e)
    (hother : e ≠ .empty p) : lastStem? parts = none ∧ e = .notSource p := by
  unfold ofParts? at h
  split at h
  · next hstem =>
    cases h
    exact ⟨hstem, rfl⟩
  · split at h
    · cases h
      exact absurd rfl hother
    · cases h

/-- The ending is taken off the last part. -/
theorem dropEnding?_join (h : ∀ part ∈ init ++ [last], '/' ∉ part) :
    dropEnding? sourceEnding (join ['/'] (init ++ [last]))
      = (dropEnding? sourceEnding last).map fun stem => join ['/'] (init ++ [stem]) := by
  cases hlast : dropEnding? sourceEnding last with
  | some stem =>
    rw [dropEnding?_eq_some.1 hlast, ← join_append_last]
    exact dropEnding?_eq_some.2 rfl
  | none =>
    rw [Option.map_none, Option.eq_none_iff_forall_ne_some]
    intro t ht
    obtain ⟨others, other, hcut⟩ := (List.eq_nil_or_concat' _).resolve_left (cut_ne_nil '/' t)
    have hother : ∀ part ∈ others ++ [other], '/' ∉ part := fun part hp =>
      not_mem_of_mem_cut (hcut ▸ hp)
    have hothers : ∀ part ∈ others ++ [other ++ sourceEnding], '/' ∉ part := by
      simpa [or_imp, forall_and, sourceEnding] using hother
    have hwhole := dropEnding?_eq_some.1 ht
    rw [← join_cut '/' t, hcut, join_append_last] at hwhole
    have hparts := join_injective (by simp) h (by simp) hothers hwhole
    have heq : last = other ++ sourceEnding := by simpa using (List.append_inj' hparts rfl).2
    rw [dropEnding?_eq_some.2 heq] at hlast
    cases hlast

/-- What is left of a path below a root is named by its parts, unless it ends with a slash; then it
is that slash alone. -/
theorem ofPath?_eq_ofParts? (h : below? root p = some (ofText s)) :
    ofPath? root p = ofParts? p ((cut '/' s).filter fun part => !part.isEmpty) := by
  obtain ⟨-, -, -, -, -, hend⟩ := written_below h
  obtain ⟨init, last, hcut⟩ := (List.eq_nil_or_concat' _).resolve_left (cut_ne_nil '/' s)
  have hfree : ∀ part ∈ init ++ [last], '/' ∉ part := fun part hp =>
    not_mem_of_mem_cut (hcut ▸ hp)
  have hread : Utf8.decode (ofText s) = .ok s := Utf8.decode_encode s
  unfold ofPath?
  simp only [h, hread]
  by_cases hlast : last = []
  · have hplace : s = [] ∨ s = ['/'] := by
      by_contra hother
      refine last_ne_nil_of_cut hcut (fun hs => hother (.inl hs)) (fun hslash => ?_) hlast
      obtain ⟨front, rfl⟩ : ∃ front, s = front ++ ['/'] := List.getLast?_eq_some_iff.1 hslash
      have hbyte : ofText ['/'] = [slash] := by decide
      have halone := hend (by rw [ofText_append, hbyte, List.getLast?_concat])
      exact hother (.inr (ofText_injective (halone.trans hbyte.symm)))
    rcases hplace with rfl | rfl <;> rfl
  · have hkept : ((cut '/' s).filter fun part => !part.isEmpty)
        = (init.filter fun part => !part.isEmpty) ++ [last] := by
      rw [hcut, List.filter_append, List.filter_cons_of_pos (by simpa using hlast)]
      rfl
    have hwhole : s = join ['/'] (init ++ [last]) := by rw [← hcut, join_cut]
    rw [hkept, ofParts?, lastStem?, List.getLast?_concat, Option.bind_some, hwhole,
      dropEnding?_join hfree]
    cases hstem : dropEnding? sourceEnding last with
    | none => rfl
    | some stem =>
      have hstems : ∀ part ∈ init ++ [stem], '/' ∉ part := by
        rw [dropEnding?_eq_some.1 hstem] at hfree
        simpa [or_imp, forall_and, sourceEnding] using hfree
      have hname : ofStem (join ['/'] (init ++ [stem]))
          = join ['.'] (segmentsOf ((init.filter fun part => !part.isEmpty) ++ [last]) stem) := by
        rw [ofStem, cut_join (by simp) hstems, segmentsOf, List.dropLast_concat,
          List.filter_append, List.filter_append, List.filter_filter]
        simp only [Bool.and_self]
      simp only [Option.map_some, hname]

/-- A path fails outside the root and where it is not text; else its parts name it. -/
theorem ofPath?_cases (root p : Path) :
    (below? root p = none ∧ ofPath? root p = .error (.outsideRoot p root)) ∨
      (∃ rest, below? root p = some rest ∧ ¬ IsText rest ∧ ofPath? root p = .error (.notText p)) ∨
      ∃ rest parts, below? root p = some rest ∧ written rest = parts.map ofText ∧
        (∀ part ∈ parts, part ≠ []) ∧ IsText rest ∧ ofPath? root p = ofParts? p parts := by
  cases h : below? root p with
  | none => exact .inl ⟨rfl, by simp only [ofPath?, h]⟩
  | some rest =>
    right
    by_cases hrest : IsText rest
    · obtain ⟨s, rfl⟩ := hrest
      refine .inr ⟨_, _, rfl, written_ofText s, fun part hp => ?_, ⟨s, rfl⟩,
        ofPath?_eq_ofParts? h⟩
      simpa using (List.mem_filter.1 hp).2
    · refine .inl ⟨rest, rfl, hrest, ?_⟩
      cases hread : Utf8.decode rest with
      | error e => simp only [ofPath?, h, hread]
      | ok s => exact absurd ⟨s, Utf8.encode_of_decode hread⟩ hrest

/-! ## §3 The last part -/

/-- A path below a root ends with its last name; where it has none, the dot that opens it is all
there is. -/
theorem getLast?_written (h : below? root p = some rest) :
    (written rest).getLast?
      = (names (written rest)).getLast?.or (openingDot root p).getLast? := by
  obtain ⟨segments, hwritten, -, hend, hnames, -⟩ := written_below h
  have hsame := List.append_cancel_left ((names_written_below h).symm.trans hnames)
  rw [hsame, hwritten]
  rcases List.eq_nil_or_concat' segments with rfl | ⟨others, last, rfl⟩
  · simp [names]
  · have hlast : isIdle last = false := hend last (by simp)
    have hne := ne_nil_of_isIdle_eq_false hlast
    have hkept : ∀ keep : Segment → Bool, keep last = true →
        ((others ++ [last]).filter keep).getLast? = some last := by
      intro keep hkeep
      rw [List.filter_append, List.filter_cons_of_pos hkeep, List.filter_nil,
        List.getLast?_concat]
    rw [List.getLast?_append, hkept _ (by simpa using hne), names, hkept _ (by simp [hlast])]

theorem map_ofText_injective : Function.Injective (List.map ofText) :=
  List.map_injective_iff.2 fun _ _ h => ofText_injective h

/-- Two spellings of a path end with the same part below a root. -/
theorem getLast?_eq_of_components (h : components p = components q)
    (hp : below? root p = some rest) (hq : below? root q = some rest')
    (hparts : written rest = parts.map ofText) (hparts' : written rest' = parts'.map ofText) :
    parts.getLast? = parts'.getLast? := by
  have hopen : openingDot root p = openingDot root q := by
    rw [openingDot, openingDot, (opening_eq_of_components h).1]
  have hlast : (written rest).getLast? = (written rest').getLast? := by
    rw [getLast?_written hp, getLast?_written hq, names_written_eq h hp hq, hopen]
  rw [hparts, hparts', List.getLast?_map, List.getLast?_map] at hlast
  exact Option.map_injective (fun _ _ => ofText_injective) hlast

/-! ## §4 The length of a name -/

/-- The characters of some segments, with one separator for each. -/
def extent (segments : List Text) : Nat := (segments.map fun s => s.length + 1).sum

theorem extent_append (u v : List Text) : extent (u ++ v) = extent u + extent v := by
  simp [extent]

theorem length_join (h : parts ≠ []) : (join ['.'] parts).length + 1 = extent parts := by
  induction parts with
  | nil => exact absurd rfl h
  | cons part others ih =>
    by_cases ho : others = []
    · subst ho
      rfl
    · have hrest := ih ho
      have hfirst : extent (part :: others) = part.length + 1 + extent others := by simp [extent]
      rw [join_cons ho, hfirst, ← hrest, List.length_append, List.length_append,
        List.length_singleton]
      omega

/-- The parts that are no lone dot. -/
def undotted (parts : List Text) : List Text := parts.filter (· != ['.'])

/-- Each lone dot among the parts adds itself and a separator. -/
theorem extent_eq (parts : List Text) :
    extent parts = extent (undotted parts) + 2 * parts.count ['.'] := by
  unfold undotted
  induction parts with
  | nil => rfl
  | cons part others ih =>
    rw [← List.singleton_append, extent_append, ih, List.filter_append, extent_append,
      List.count_append]
    by_cases hdot : part = ['.']
    · rw [hdot]
      simp [extent]
      omega
    · simp [hdot]
      omega

theorem ofParts?_eq_ok {n : Name} (h : ofParts? p parts = .ok n) :
    ∃ stem, lastStem? parts = some stem ∧ join ['.'] (segmentsOf parts stem) = n ∧ n ≠ [] := by
  unfold ofParts? at h
  split at h
  · cases h
  · next stem hstem =>
    split at h
    · cases h
    · next hne =>
      cases h
      exact ⟨stem, hstem, rfl, by simpa using hne⟩

theorem length_of_ofParts? {n : Name} (hne : ∀ part ∈ init ++ [last], part ≠ [])
    (h : ofParts? p (init ++ [last]) = .ok n) :
    ∃ stem, dropEnding? sourceEnding last = some stem ∧
      n.length + 1 = extent init + extent ([stem].filter fun s => !s.isEmpty) := by
  obtain ⟨stem, hstem, rfl, hname⟩ := ofParts?_eq_ok h
  rw [lastStem?, List.getLast?_concat, Option.bind_some] at hstem
  have hkept : (init.filter fun s => !s.isEmpty) = init :=
    List.filter_eq_self.2 fun part hp => by simpa using hne part (List.mem_append_left _ hp)
  have hsegments : segmentsOf (init ++ [last]) stem ≠ [] := fun he => hname (by rw [he]; rfl)
  refine ⟨stem, hstem, ?_⟩
  rw [length_join hsegments, segmentsOf, List.dropLast_concat, List.filter_append, extent_append,
    hkept]

/-- Parts with the same end that spell the same name have the same extent. -/
theorem extent_eq_of_ofParts? {n : Name} (hne : ∀ part ∈ parts, part ≠ [])
    (hne' : ∀ part ∈ parts', part ≠ []) (hlast : parts.getLast? = parts'.getLast?)
    (h : ofParts? p parts = .ok n) (h' : ofParts? q parts' = .ok n) :
    extent parts = extent parts' := by
  rcases List.eq_nil_or_concat' parts with rfl | ⟨init, last, rfl⟩
  · cases h
  rcases List.eq_nil_or_concat' parts' with rfl | ⟨init', last', rfl⟩
  · cases h'
  obtain rfl : last = last' := by simpa using hlast
  obtain ⟨stem, hstem, hlength⟩ := length_of_ofParts? hne h
  obtain ⟨stem', hstem', hlength'⟩ := length_of_ofParts? hne' h'
  obtain rfl : stem = stem' := Option.some.inj (hstem.symm.trans hstem')
  rw [extent_append, extent_append]
  omega

theorem names_map_ofText (hne : ∀ part ∈ parts, part ≠ []) :
    names (parts.map ofText) = (undotted parts).map ofText := by
  rw [names, List.filter_map, undotted]
  congr 1
  refine List.filter_congr fun part hp => ?_
  by_cases hdot : part = ['.']
  · rw [hdot]
    rfl
  · simp [isIdle_ofText (hne part hp) hdot, hdot]

theorem count_dots (parts : List Text) :
    ((parts.map ofText).map (· == dot)).count true = parts.count ['.'] := by
  induction parts with
  | nil => rfl
  | cons part others ih =>
    rw [List.map_cons, List.map_cons, List.count_cons, List.count_cons, ih]
    by_cases hdot : part = ['.']
    · rw [hdot]
      rfl
    · have hbytes : ofText part ≠ dot := fun he => hdot (ofText_injective (t := ['.']) he)
      simp [hdot, hbytes]

/-! ## §5 Two spellings -/

/-- How the class names compare that two spellings of a path have below a root. -/
structure SpelledAlike (root p q : Path) : Prop where
  /-- Where they leave the same dots, both have one name, or fail for one reason. -/
  outcome : dotsBelow root p = dotsBelow root q →
    ofPath? root q = (ofPath? root p).mapError (·.about q)
  /-- They leave the same dots where they differ in separators only. -/
  separators : dot ∉ (opening p).2 → dot ∉ (opening q).2 → dotsBelow root p = dotsBelow root q
  /-- Whatever the dots, both lie below the root or none does, both are text or none is, and both
  have the ending of class files or none has. -/
  faults : ∀ e, ofPath? root p = .error e → e ≠ .empty p → ofPath? root q = .error (e.about q)
  /-- Where the one leaves more dots than the other, they are not named alike. -/
  dots : ∀ n, ofPath? root p = .ok n → ofPath? root q = .ok n →
    (dotsBelow root p).count true = (dotsBelow root q).count true

theorem isText_iff_of_components (h : components p = components q)
    (hp : below? root p = some rest) (hq : below? root q = some rest') :
    IsText rest ↔ IsText rest' := by
  rw [isText_iff_names, isText_iff_names, names_written_eq h hp hq]

/-- Both spellings fail outside the root and where they are not text; else parts name them that
have the same names and the same end. -/
theorem ofPath?_cases_of_components (h : components p = components q) (root : Path) :
    (∃ e : NamingError, ofPath? root p = .error e ∧ ofPath? root q = .error (e.about q)) ∨
      ∃ parts parts', (∀ part ∈ parts, part ≠ []) ∧ (∀ part ∈ parts', part ≠ []) ∧
        dotsBelow root p = (parts.map ofText).map (· == dot) ∧
        dotsBelow root q = (parts'.map ofText).map (· == dot) ∧
        undotted parts = undotted parts' ∧
        parts.getLast? = parts'.getLast? ∧
        ofPath? root p = ofParts? p parts ∧ ofPath? root q = ofParts? q parts' := by
  rcases ofPath?_cases root p with ⟨hp, hout⟩ | ⟨rest, hp, htext, hout⟩ |
    ⟨rest, parts, hp, hparts, hne, htext, hout⟩
  · have hq := (below?_eq_none_iff h).1 hp
    exact .inl ⟨_, hout, by simp only [ofPath?, hq]; rfl⟩
  · rcases ofPath?_cases root q with ⟨hq, -⟩ | ⟨rest', hq, -, hout'⟩ |
      ⟨rest', -, hq, -, -, htext', -⟩
    · rw [(below?_eq_none_iff h).2 hq] at hp
      cases hp
    · exact .inl ⟨_, hout, hout'⟩
    · exact absurd ((isText_iff_of_components h hp hq).2 htext') htext
  · rcases ofPath?_cases root q with ⟨hq, -⟩ | ⟨rest', hq, htext', -⟩ |
      ⟨rest', parts', hq, hparts', hne', -, hout'⟩
    · rw [(below?_eq_none_iff h).2 hq] at hp
      cases hp
    · exact absurd ((isText_iff_of_components h hp hq).1 htext) htext'
    · have hnames := names_written_eq h hp hq
      rw [hparts, hparts', names_map_ofText hne, names_map_ofText hne'] at hnames
      refine .inr ⟨parts, parts', hne, hne', ?_, ?_, map_ofText_injective hnames,
        getLast?_eq_of_components h hp hq hparts hparts', hout, hout'⟩
      · simp only [dotsBelow, hp, hparts]
      · simp only [dotsBelow, hq, hparts']

/-- **Spellings and names.** Of two spellings of a path, both are named alike or fail alike below
a root where they leave the same dots there, and so where they differ in separators only. -/
theorem spelledAlike (root : Path) (h : components p = components q) : SpelledAlike root p q := by
  rcases ofPath?_cases_of_components h root with ⟨e, hp, hq⟩ |
    ⟨parts, parts', hne, hne', hdots, hdots', hnames, hlast, hp, hq⟩
  · exact {
      outcome := fun _ => by rw [hp, hq]; rfl
      separators := dotsBelow_of_separators h
      faults := fun e' he _ => by
        obtain rfl : e = e' := Except.error.inj (hp.symm.trans he)
        exact hq
      dots := fun n hn => by
        rw [hp] at hn
        cases hn }
  · exact {
      outcome := fun hsame => by
        rw [hdots, hdots'] at hsame
        have hkept : names (parts.map ofText) = names (parts'.map ofText) := by
          rw [names_map_ofText hne, names_map_ofText hne', hnames]
        have hparts : parts = parts' := map_ofText_injective
          (eq_of_names_of_dots (ne_nil_of_mem_map hne) (ne_nil_of_mem_map hne') hkept hsame)
        rw [hp, hq, ← hparts]
        exact ofParts?_about p q parts
      separators := dotsBelow_of_separators h
      faults := fun e he hother => by
        obtain ⟨hstem, rfl⟩ := ofParts?_eq_error (hp.symm.trans he) hother
        rw [lastStem?, hlast] at hstem
        rw [hq, ofParts?, lastStem?, hstem]
        rfl
      dots := fun n hn hn' => by
        rw [hp] at hn
        rw [hq] at hn'
        have hextent := extent_eq_of_ofParts? hne hne' hlast hn hn'
        have hparts := extent_eq parts
        have hparts' := extent_eq parts'
        rw [hnames] at hparts
        rw [hdots, hdots', count_dots, count_dots]
        omega }

/-- A path with a doubled slash, a dot behind the root and a slash at its end is spelled like the
path without them, and so is the name below the root. -/
theorem spelledAlike_separators :
    components (ofText "/out/./a//b.smali/".toList) = components (ofText "/out/a/b.smali".toList) ∧
      SpelledAlike (ofText "/out".toList) (ofText "/out/./a//b.smali/".toList)
        (ofText "/out/a/b.smali".toList) := by
  have h : components (ofText "/out/./a//b.smali/".toList)
      = components (ofText "/out/a/b.smali".toList) := by decide +kernel
  exact ⟨h, spelledAlike _ h⟩

/-- A lone dot between two directories is no component, but becomes a segment of the name. -/
theorem innerDot_named_apart :
    ¬ ∀ root p q : Path, components p = components q →
      ofPath? root q = (ofPath? root p).mapError (·.about q) := by
  intro h
  have hsame := h (ofText "/out/smali".toList) (ofText "/out/smali/a/./b.smali".toList)
    (ofText "/out/smali/a/b.smali".toList) (by decide +kernel)
  revert hsame
  decide +kernel

end Name

end ClassGraph
