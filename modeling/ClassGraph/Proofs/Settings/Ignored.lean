/-
ClassGraph.Proofs.Settings.Ignored — the patterns of classes that are left
out.

The selection of classes that settings give accepts a name exactly where none
of their patterns matches it as a whole (`passes_classes`). On the command
line patterns are added to those of the file of settings, and one more of
them leaves out what it matches and changes nothing else: `asked?_of_extra`.
-/
import ClassGraph.Command.Request
import ClassGraph.Proofs.Steps

namespace ClassGraph

/-! ## §1 What patterns leave out -/

/-- Whether a pattern can be read and matches a text as a whole. -/
def Pattern.matchesWhole (written s : Text) : Bool :=
  (readWhole written).toOption.any fun p => p.foundIn s

namespace Selection

variable {written : Text} {selection : Selection}

theorem accepts_ofPattern (h : ofPattern written = .ok selection) (s : Text) :
    selection.accepts s = Pattern.matchesWhole written s := by
  obtain ⟨p, hp, rfl⟩ := map_eq_ok.1 h
  rw [Pattern.matchesWhole, hp]
  rfl

theorem accepts_ofExcluded (h : ofExcluded written = .ok selection) (s : Text) :
    selection.accepts s = !Pattern.matchesWhole written s := by
  obtain ⟨p, hp, rfl⟩ := map_eq_ok.1 h
  rw [Pattern.matchesWhole, hp]
  rfl

/-- A pattern whose matches can be left out can be looked for too. -/
theorem ofPattern_of_ofExcluded (h : ofExcluded written = .ok selection) :
    ∃ found, ofPattern written = .ok found := by
  obtain ⟨p, hp, -⟩ := map_eq_ok.1 h
  exact ⟨.matching p, map_eq_ok.2 ⟨p, hp, rfl⟩⟩

end Selection

namespace Settings

variable {c : Settings} {patterns : List Text} {written : Text} {selection : Selection}
  {classes : Option Selection} {options : Options} {parallel : Bool}

theorem excluded_cons_eq_ok (h : excluded (written :: patterns) = .ok selection) :
    ∃ first rest, Selection.ofExcluded written = .ok first ∧ excluded patterns = .ok rest ∧
      selection = .both first rest := by
  obtain ⟨first, hfirst, hjoined⟩ := bind_eq_ok.1 h
  obtain ⟨rest, hrest, rfl⟩ := map_eq_ok.1 hjoined
  exact ⟨first, rest, hfirst, hrest, rfl⟩

theorem accepts_excluded (h : excluded patterns = .ok selection) (n : Name) :
    selection.accepts n = !patterns.any fun written => Pattern.matchesWhole written n := by
  induction patterns generalizing selection with
  | nil =>
    cases h
    rfl
  | cons written patterns ih =>
    obtain ⟨first, rest, hfirst, hrest, rfl⟩ := excluded_cons_eq_ok h
    rw [Selection.accepts, Selection.accepts_ofExcluded hfirst, ih hrest, List.any_cons,
      Bool.not_or]

theorem ofPattern_of_excluded (h : excluded patterns = .ok selection) (hmem : written ∈ patterns) :
    ∃ found, Selection.ofPattern written = .ok found := by
  induction patterns generalizing selection with
  | nil => cases hmem
  | cons other patterns ih =>
    obtain ⟨first, rest, hfirst, hrest, -⟩ := excluded_cons_eq_ok h
    rcases List.mem_cons.1 hmem with rfl | hmem
    · exact Selection.ofPattern_of_ofExcluded hfirst
    · exact ih hrest hmem

/-- The selection of classes is that of the patterns, also where there are none. -/
theorem classes_eq_ok (h : c.classes = .ok classes) : ∃ selection,
    excluded c.ignored = .ok selection ∧ ∀ n, Selection.passes classes n = selection.accepts n := by
  unfold Settings.classes at h
  split at h
  · next hempty =>
    cases h
    rw [List.isEmpty_iff.1 hempty]
    exact ⟨.everything, rfl, fun _ => rfl⟩
  · obtain ⟨selection, hselection, rfl⟩ := map_eq_ok.1 h
    exact ⟨selection, hselection, fun _ => rfl⟩

/-- A class takes part where no pattern matches its name. -/
theorem passes_classes (h : c.classes = .ok classes) (n : Name) :
    Selection.passes classes n
      = !c.ignored.any fun written => Pattern.matchesWhole written n := by
  obtain ⟨selection, hselection, hpasses⟩ := classes_eq_ok h
  rw [hpasses, accepts_excluded hselection]

theorem ofPattern_of_classes (h : c.classes = .ok classes) (hmem : written ∈ c.ignored) :
    ∃ found, Selection.ofPattern written = .ok found := by
  obtain ⟨selection, hselection, -⟩ := classes_eq_ok h
  exact ofPattern_of_excluded hselection hmem

theorem options_eq_ok (h : c.options parallel = .ok options) :
    c.paths = .ok options.paths ∧ c.classes = .ok options.classes ∧
      options.generated = c.generated := by
  obtain ⟨paths, hpaths, hjoined⟩ := bind_eq_ok.1 h
  obtain ⟨classes, hclasses, rfl⟩ := map_eq_ok.1 hjoined
  exact ⟨hpaths, hclasses, rfl⟩

end Settings

/-! ## §2 Patterns on the command line -/

namespace AnalyzeRequest

variable {r : AnalyzeRequest} {s : Storage} {here : Place} {options options' : Options}

/-- The settings over which those of a request are put, by the path of their file. -/
def settingsBelow (settings : Option Path) (s : Storage) (here : Place) :
    Except SettingsError Settings :=
  match settings with
  | none => .ok Settings.usual
  | some p => Settings.ofFile p (s.readBut here Refusal.nothing p)

theorem settingsIn_eq (r : AnalyzeRequest) (s : Storage) (here : Place) :
    r.settingsIn s here = (settingsBelow r.settings s here).map r.override := by
  unfold settingsIn settingsBelow
  cases r.settings <;> rfl

/-- The options of the analysis that a request asks for, where its settings can be used. -/
def asked? (r : AnalyzeRequest) (s : Storage) (here : Place) : Option Options :=
  match r.settingsIn s here with
  | .error _ => none
  | .ok c =>
    match c.options r.parallel with
    | .error _ => none
    | .ok options => some options

theorem asked?_eq_some (h : r.asked? s here = some options) :
    ∃ c, r.settingsIn s here = .ok c ∧ c.options r.parallel = .ok options := by
  unfold asked? at h
  split at h
  · cases h
  · next c hc =>
    split at h
    · cases h
    · next options' hoptions =>
      cases h
      exact ⟨c, hc, hoptions⟩

/-- One more pattern changes nothing but the selection of classes, and leaves out no class that it
does not match. -/
theorem asked?_of_extra {before after : List Text} {extra : Text}
    (hlist : r.ignored = before ++ after)
    (h : { r with ignored := before ++ extra :: after }.asked? s here = some options)
    (h' : r.asked? s here = some options') :
    options.paths = options'.paths ∧ options.generated = options'.generated ∧
      ∃ found, Selection.ofPattern extra = .ok found ∧ ∀ n,
        Selection.passes options.classes n
          = (Selection.passes options'.classes n && !found.accepts n) := by
  obtain ⟨c, hc, hoptions⟩ := asked?_eq_some h
  obtain ⟨c', hc', hoptions'⟩ := asked?_eq_some h'
  rw [settingsIn_eq] at hc hc'
  obtain ⟨below, hbelow, rfl⟩ := map_eq_ok.1 hc'
  obtain ⟨below', hbelow', rfl⟩ := map_eq_ok.1 hc
  obtain rfl : below = below' := Except.ok.inj (hbelow.symm.trans hbelow')
  obtain ⟨hpaths, hclasses, hgenerated⟩ := Settings.options_eq_ok hoptions
  obtain ⟨hpaths', hclasses', hgenerated'⟩ := Settings.options_eq_ok hoptions'
  have hextra : extra ∈ below.ignored ++ (before ++ extra :: after) := by simp
  obtain ⟨found, hfound⟩ := Settings.ofPattern_of_classes hclasses hextra
  refine ⟨Except.ok.inj (hpaths.symm.trans hpaths'), hgenerated.trans hgenerated'.symm, found,
    hfound, fun n => ?_⟩
  rw [Settings.passes_classes hclasses, Settings.passes_classes hclasses',
    Selection.accepts_ofPattern hfound]
  simp only [override, hlist, List.any_append, List.any_cons]
  cases Pattern.matchesWhole extra n <;> simp

end AnalyzeRequest

end ClassGraph
