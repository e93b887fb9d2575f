/-
ClassGraph.Proofs.Graph.Written — what the written forms of a graph tell.

Names may hold any characters, the quotes, brackets and line breaks of the
forms among them. Still no name can be taken for something else: the escapes
of a form make what stands between its quotes decodable, and from there each
larger part of the text is decodable because its smaller parts are. The JSON
form tells the whole graph, and so does the DOT form with weights, whose
numbers lead back to the classes; without weights it tells which classes are
joined, and no more (`write_eq_write_iff`).
-/
import ClassGraph.Graph.Export
import ClassGraph.Settings.Json
import ClassGraph.Proofs.Graph.Accumulation
import ClassGraph.Proofs.Graph.Numbering
import ClassGraph.Proofs.Text.Decodable

namespace ClassGraph

namespace Export

/-! ## §1 Escapes -/

/-- The first character that a DOT string writes down, and what follows it. -/
def readDotChar : Text → Option (Char × Text)
  | '\\' :: 'l' :: s => some ('\n', s)
  | '\\' :: c :: s => some (c, s)
  | c :: s => some (c, s)
  | [] => none

theorem readDotChar_escape (c : Char) (s : Text) : readDotChar (dotEscape c ++ s) = some (c, s) := by
  unfold dotEscape
  split
  · next h => simp [readDotChar, h]
  · split
    · next h => simp [readDotChar, h]
    · split
      · next h => simp [readDotChar, h]
      · next hquote hslash hbreak =>
        -- any other character stands for itself, as it begins no escape
        rw [List.singleton_append, readDotChar.eq_def]
        split <;> simp_all

theorem dotQuoted_decodable : Decodable dotQuoted Anything :=
  .quoted readDotChar readDotChar_escape (fun _ => rfl) fun _ _ => by simp [dotEscape]

/-- A line break is not taken for the two characters that it is written with. -/
example : dotQuoted ['\n'] ≠ dotQuoted ['\\', 'l'] := by decide

/-- The first character that a JSON string writes down, and what follows it. -/
def readJsonChar : Text → Option (Char × Text)
  | '\\' :: 'u' :: _ :: _ :: high :: low :: s => do
    let high ← JsonReader.hexValue? high
    let low ← JsonReader.hexValue? low
    some (Char.ofNat (16 * high + low), s)
  | '\\' :: c :: s => (JsonReader.escaped? c).map fun c => (c, s)
  | c :: s => some (c, s)
  | [] => none

theorem hexValue?_hexDigit : ∀ n < 16, JsonReader.hexValue? (hexDigit n) = some n := by decide

theorem readJsonChar_escape (c : Char) (s : Text) :
    readJsonChar (jsonEscape c ++ s) = some (c, s) := by
  unfold jsonEscape
  split
  · next h => subst h; rfl
  split
  · next h => subst h; rfl
  split
  · next h => subst h; rfl
  split
  · next h => subst h; rfl
  split
  · next h => subst h; rfl
  split
  · next h =>
    rw [← Char.ofNat_toNat c, h]
    rfl
  split
  · next h =>
    rw [← Char.ofNat_toNat c, h]
    rfl
  split
  · next h =>
    have hhigh := hexValue?_hexDigit (c.toNat / 16) (by omega)
    have hlow := hexValue?_hexDigit (c.toNat % 16) (by omega)
    have hc : Char.ofNat (16 * (c.toNat / 16) + c.toNat % 16) = c := by
      rw [Nat.div_add_mod, Char.ofNat_toNat]
    simp only [List.cons_append, List.nil_append, readJsonChar, hhigh, hlow, Option.bind_some,
      bind, hc]
  · rw [List.singleton_append, readJsonChar.eq_def]
    split <;> simp_all

theorem jsonQuoted_decodable : Decodable jsonQuoted Anything :=
  .quoted readJsonChar readJsonChar_escape (fun _ => rfl) fun _ _ => by simp [jsonEscape]

/-! ## §2 JSON -/

/-- What follows a member of an object: the comma before the next, or the line break at the end. -/
def EndsMember (x : Text) : Prop := ∃ y, x = ',' :: y ∨ x = '\n' :: y

theorem weightText_decodable : Decodable (fun w : Weight => decimal w.toNat) EndsMember := by
  refine (Decodable.decimal.comp fun _ _ h => UInt32.toNat_inj.1 h).mono fun x hx => ?_
  obtain ⟨y, rfl | rfl⟩ := hx
  · exact Decodable.noDigitFirst_cons rfl y
  · exact Decodable.noDigitFirst_cons rfl y

/-- The line of a member, apart from what separates it from the next. -/
def jsonMember {β : Type} (indent : Text) (write : β → Text) (m : Text × β) : Text :=
  indent ++ jsonQuoted m.1 ++ [':', ' '] ++ write m.2

theorem jsonObject_map_cons {β : Type} (indent outdent : Text) (write : β → Text) (m : Text × β)
    (ms : List (Text × β)) :
    jsonObject indent outdent ((m :: ms).map fun m => (m.1, write m.2))
      = ['{', '\n'] ++ (join [',', '\n'] ((m :: ms).map (jsonMember indent write))
          ++ '\n' :: (outdent ++ ['}'])) := by
  rw [jsonObject, if_neg (by simp), List.map_map, List.append_assoc, List.append_assoc,
    List.append_assoc]
  rfl

/-- An object is decodable where the values of its members are. -/
theorem jsonObject_decodable {β : Type} {write : β → Text} (h : Decodable write EndsMember)
    (indent outdent : Text) :
    Decodable (fun ms : List (Text × β) =>
      jsonObject indent outdent (ms.map fun m => (m.1, write m.2))) Anything := by
  have hkey : Decodable (fun k => indent ++ jsonQuoted k ++ [':', ' ']) Anything :=
    (jsonQuoted_decodable.prepend indent).append [':', ' '] fun _ => trivial
  have hmember : Decodable (jsonMember indent write) EndsMember := hkey.pair h fun _ _ _ => trivial
  have hmembers : Decodable (fun p : (Text × β) × List (Text × β) =>
      join [',', '\n'] ((p.1 :: p.2).map (jsonMember indent write))) fun x => ∃ y, x = '\n' :: y := by
    refine hmember.join (fun x => ⟨'\n' :: x, .inl rfl⟩) fun x hx => ?_
    obtain ⟨y, rfl⟩ := hx
    exact ⟨⟨y, .inr rfl⟩, fun t ht => by cases ht⟩
  have hwhole : Decodable (fun p : (Text × β) × List (Text × β) =>
      ['{', '\n'] ++ (join [',', '\n'] ((p.1 :: p.2).map (jsonMember indent write))
        ++ '\n' :: (outdent ++ ['}']))) Anything :=
    (hmembers.append _ fun _ => ⟨_, rfl⟩).prepend ['{', '\n']
  intro ms ms' x y _ _ he
  simp only at he
  cases ms with
  | nil =>
    cases ms' with
    | nil => exact ⟨rfl, List.append_cancel_left he⟩
    | cons m' ms' =>
      -- an empty object ends where the other breaks the line
      rw [jsonObject_map_cons] at he
      simp [jsonObject] at he
  | cons m ms =>
    cases ms' with
    | nil =>
      rw [jsonObject_map_cons] at he
      simp [jsonObject] at he
    | cons m' ms' =>
      rw [jsonObject_map_cons, jsonObject_map_cons] at he
      obtain ⟨hms, hxy⟩ := hwhole (m, ms) (m', ms') x y trivial trivial he
      cases hms
      exact ⟨rfl, hxy⟩

theorem jsonRow_decodable : Decodable jsonRow Anything :=
  (jsonObject_decodable weightText_decodable "    ".toList "  ".toList).comp fun _ _ h =>
    SortedMap.ext h

/-- The JSON form tells the graph. -/
theorem json_injective {g g' : Graph} (h : json g = json g') : g = g' := by
  have hrow : Decodable jsonRow EndsMember := jsonRow_decodable.mono fun _ _ => trivial
  obtain ⟨hlist, -⟩ := jsonObject_decodable hrow "  ".toList [] g.rows.toList g'.rows.toList
    ['\n'] ['\n'] trivial trivial h
  have hrows : g.rows = g'.rows := SortedMap.ext hlist
  cases g
  cases g'
  cases hrows
  rfl

/-! ## §3 DOT -/

theorem dotLabel_decodable : Decodable dotLabel Anything :=
  (dotQuoted_decodable.prepend "[ label = ".toList).append " ]".toList fun _ => trivial

theorem weight_injective {w w' : Weight} (h : decimal w.toNat = decimal w'.toNat) : w = w' := by
  have hread := readDecimal_decimal w.toNat
  rw [h, readDecimal_decimal] at hread
  exact UInt32.toNat_inj.1 (Option.some.inj hread).symm

theorem weightLabel_decodable : Decodable (fun w : Weight => dotLabel (decimal w.toNat)) Anything :=
  dotLabel_decodable.comp fun _ _ h => weight_injective h

theorem noDigitFirst_blank (x : Text) : Decodable.NoDigitFirst (' ' :: x) :=
  Decodable.noDigitFirst_cons rfl x

/-- What every line of a class and every line of an edge begins with. -/
theorem number_decodable : Decodable (fun n => "    ".toList ++ decimal n ++ [' ']) Anything :=
  (Decodable.decimal.prepend "    ".toList).append [' '] noDigitFirst_blank

theorem dotNode_decodable : Decodable dotNode Anything := by
  have hline := (number_decodable.pair dotLabel_decodable fun _ _ _ => trivial).append
    ['\n'] fun _ => trivial
  refine hline.comp (f := Prod.swap) fun e e' h => ?_
  exact Prod.swap_inj.1 h

/-- The line of an edge up to its label. -/
def dotEnds (p : Nat × Nat) : Text :=
  "    ".toList ++ decimal p.1 ++ " -> ".toList ++ decimal p.2 ++ [' ']

theorem dotEnds_decodable : Decodable dotEnds Anything := by
  have hsource : Decodable (fun n => "    ".toList ++ decimal n ++ " -> ".toList) Anything :=
    (Decodable.decimal.prepend "    ".toList).append " -> ".toList fun _ => noDigitFirst_blank _
  exact (hsource.pair Decodable.decimal fun _ _ _ => trivial).append [' '] noDigitFirst_blank

/-- The line of an edge without its weight. -/
def dotArrow (p : Nat × Nat) : Text := dotEnds p ++ "[ ]".toList ++ ['\n']

theorem dotArrow_decodable : Decodable dotArrow Anything :=
  (dotEnds_decodable.append "[ ]".toList fun _ => trivial).append ['\n'] fun _ => trivial

theorem dotEdge_decodable : Decodable (dotEdge true) Anything := by
  have hline := (dotEnds_decodable.pair weightLabel_decodable fun _ _ _ => trivial).append
    ['\n'] fun _ => trivial
  refine hline.comp (f := fun e : Nat × Nat × Weight => (ends e, e.2.2)) fun e e' h => ?_
  simpa [ends, Prod.ext_iff, and_assoc] using h

/-- Lines of classes, then lines of edges. -/
def drawing {β : Type} (arrow : β → Text) (p : List (Name × Nat) × List β) : Text :=
  "digraph \x7b\n".toList ++ p.1.flatMap dotNode ++ p.2.flatMap arrow ++ "\x7d\n".toList

theorem dotEnds_append (p : Nat × Nat) (x : Text) :
    dotEnds p ++ x = ("    ".toList ++ decimal p.1 ++ [' '])
      ++ ("-> ".toList ++ decimal p.2 ++ [' '] ++ x) := by
  have harrow : " -> ".toList = [' '] ++ "-> ".toList := rfl
  unfold dotEnds
  rw [harrow]
  simp only [List.append_assoc]

theorem dotNode_append (e : Name × Nat) (x : Text) :
    dotNode e ++ x = ("    ".toList ++ decimal e.2 ++ [' ']) ++ (dotLabel e.1 ++ ['\n'] ++ x) := by
  unfold dotNode
  simp only [List.append_assoc]

/-- After its number a line of an edge goes on with an arrow, a line of a class with a bracket. -/
theorem noneFirst_dotEnds (p : Nat × Nat) (x : Text) : NoneFirst dotNode (dotEnds p ++ x) := by
  intro e y he
  rw [dotEnds_append, dotNode_append] at he
  obtain ⟨-, hrest⟩ := number_decodable p.1 e.2 _ _ trivial trivial he
  cases hrest

/-- Lines of classes and lines of edges can be told apart, whatever an edge says after its ends. -/
theorem drawing_decodable {β : Type} {arrow : β → Text} (h : Decodable arrow Anything)
    (hends : ∀ b, ∃ p t, arrow b = dotEnds p ++ t) : Decodable (drawing arrow) Anything := by
  have hnode : ∀ b x, NoneFirst dotNode (arrow b ++ x) := by
    intro b x
    obtain ⟨p, t, hb⟩ := hends b
    rw [hb, List.append_assoc]
    exact noneFirst_dotEnds p _
  have hlast : ∀ x, NoneFirst arrow ("\x7d\n".toList ++ x) := by
    intro x b y he
    obtain ⟨p, t, hb⟩ := hends b
    rw [hb] at he
    cases he
  have hnodes : Decodable (fun es : List (Name × Nat) => es.flatMap dotNode) (NoneFirst dotNode) :=
    dotNode_decodable.flatMap (fun _ _ => trivial) fun _ hx => ⟨trivial, hx⟩
  have hedges : Decodable (fun bs : List β => bs.flatMap arrow)
      fun x => NoneFirst arrow x ∧ NoneFirst dotNode x :=
    h.flatMap (fun _ _ => trivial) fun _ hx => ⟨trivial, hx.1⟩
  -- the classes end where an edge or the closing brace begins, the edges end where the brace does
  have hlines := (hnodes.prepend "digraph \x7b\n".toList).pair hedges fun _ _ hx =>
    Decodable.after_flatMap hnode hx.2 _
  refine hlines.append "\x7d\n".toList fun x => ⟨hlast x, ?_⟩
  intro e y he
  cases he

/-- Two drawings are the same only if they have the same classes and the same lines of edges. -/
theorem drawing_injective {β : Type} {arrow : β → Text} (h : Decodable arrow Anything)
    (hends : ∀ b, ∃ p t, arrow b = dotEnds p ++ t) {nodes nodes' : List Name} {bs bs' : List β}
    (he : drawing arrow (nodes.zipIdx, bs) = drawing arrow (nodes'.zipIdx, bs')) :
    nodes = nodes' ∧ bs = bs' := by
  obtain ⟨hparts, -⟩ := drawing_decodable h hends _ _ [] [] trivial trivial
    (congrArg (fun s => s ++ []) he)
  obtain ⟨hzip, hbs⟩ := Prod.mk.inj hparts
  have hnodes := congrArg (List.map Prod.fst) hzip
  rw [List.zipIdx_map_fst, List.zipIdx_map_fst] at hnodes
  exact ⟨hnodes, hbs⟩

/-- The DOT form with weights tells the edges. -/
theorem edges_eq_of_dot {g g' : Graph} (h : dot g true = dot g' true) : g.edges = g'.edges := by
  obtain ⟨hnodes, hedges⟩ := drawing_injective dotEdge_decodable
    (fun e => ⟨ends e, _, List.append_assoc _ _ _⟩) h
  apply Indexed.ofEdges_injective
  rw [← Graph.indexed_eq_ofEdges, ← Graph.indexed_eq_ofEdges]
  cases hv : g.indexed
  cases hv' : g'.indexed
  rw [hv, hv'] at hnodes hedges
  cases hnodes
  cases hedges
  rfl

theorem dot_without_weights (g : Graph) :
    dot g false = drawing dotArrow (g.indexed.nodes.zipIdx, g.indexed.edges.map ends) := by
  have hedges : (g.indexed.edges.map ends).flatMap dotArrow
      = g.indexed.edges.flatMap (dotEdge false) := by
    rw [List.flatMap_map]
    rfl
  unfold drawing
  simp only
  rw [hedges]
  rfl

/-- The DOT form without weights tells which classes are joined, and no more. -/
theorem dot_without_weights_eq_iff {g g' : Graph} :
    dot g false = dot g' false ↔ g.edges.map ends = g'.edges.map ends := by
  rw [← Indexed.sameEnds_ofEdges_iff, ← Graph.indexed_eq_ofEdges, ← Graph.indexed_eq_ofEdges,
    dot_without_weights, dot_without_weights]
  constructor
  · intro h
    exact drawing_injective dotArrow_decodable (fun p => ⟨p, _, List.append_assoc _ _ _⟩) h
  · intro h
    obtain ⟨hnodes, hedges⟩ := h
    rw [hnodes, hedges]

end Export

namespace Graph

/-- **What a written form tells**: of two graphs that any merges have led to, with names of any
characters, the JSON forms are the same only if the graphs are, and so are the DOT forms with
weights; the DOT forms without weights are the same if the same classes are joined, and only
then. -/
theorem write_eq_write_iff (files files' : List (Name × Counts)) (weights weights' : Bool) :
    ((empty.mergeAll files).write .json weights = (empty.mergeAll files').write .json weights' ↔
      empty.mergeAll files = empty.mergeAll files') ∧
    ((empty.mergeAll files).write .dot true = (empty.mergeAll files').write .dot true ↔
      empty.mergeAll files = empty.mergeAll files') ∧
    ((empty.mergeAll files).write .dot false = (empty.mergeAll files').write .dot false ↔
      ∀ s t, ((empty.mergeAll files).weight? s t).isSome
        = ((empty.mergeAll files').weight? s t).isSome) := by
  refine ⟨⟨Export.json_injective, fun h => ?_⟩, ⟨fun h => ?_, fun h => by rw [h]⟩,
    Export.dot_without_weights_eq_iff.trans ends_edges_eq_iff⟩
  · rw [h]
    rfl
  · exact Compact.eq_of_weight? (compact_mergeAll compact_empty files)
      (compact_mergeAll compact_empty files') (weight?_eq_of_edges (Export.edges_eq_of_dot h))

end Graph

end ClassGraph
