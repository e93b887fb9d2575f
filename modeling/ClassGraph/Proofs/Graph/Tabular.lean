/-
ClassGraph.Proofs.Graph.Tabular — the comma-separated values read as a
table.

The text is a table: lines that each end with a line feed, fields that
commas separate (`csv_eq_written`). Where no field holds either of these, a
cut into lines and of each line into fields gives the table back
(`readTable_written`). What it then says of the graph is `tabular_csv`: one
row for each edge, in the order of the bytes of the names, with the weight in
the third column, and without weights the same table short of that column.

Nothing is quoted, so the condition on the names is needed.
-/
import ClassGraph.Graph.Export
import ClassGraph.Proofs.Graph.Faithful
import ClassGraph.Proofs.Text.ByteOrder
import ClassGraph.Proofs.Text.Decodable
import ClassGraph.Proofs.Text.Pieces

namespace ClassGraph

namespace Export

variable {g : Graph} {weights : Bool}

/-! ## §1 Tables -/

/-- A text that can be a field of a table. -/
def IsField (s : Text) : Prop := ',' ∉ s ∧ '\n' ∉ s

instance (s : Text) : Decidable (IsField s) := inferInstanceAs (Decidable (_ ∧ _))

/-- A table as text. -/
def written (table : List (List Text)) : Text :=
  table.flatMap fun row => join [','] row ++ ['\n']

/-- The lines of a text, each without the line feed that ends it. -/
def linesOf (s : Text) : List Text := (cut '\n' s).dropLast

/-- The table that a text is. -/
def readTable (s : Text) : List (List Text) := (linesOf s).map (cut ',')

theorem cut_flatMap_lines {lines : List Text} (h : ∀ line ∈ lines, '\n' ∉ line) :
    cut '\n' (lines.flatMap (· ++ ['\n'])) = lines ++ [[]] := by
  induction lines with
  | nil => rfl
  | cons line lines ih =>
    have hrest := ih fun l hl => h l (List.mem_cons_of_mem _ hl)
    rw [List.flatMap_cons, List.append_assoc, List.singleton_append,
      cut_append_sep (h line (List.mem_cons_self ..)), hrest, List.cons_append]

theorem readTable_written {table : List (List Text)} (hne : ∀ row ∈ table, row ≠ [])
    (h : ∀ row ∈ table, ∀ field ∈ row, IsField field) : readTable (written table) = table := by
  have hlines : ∀ line ∈ table.map (join [',']), '\n' ∉ line := by
    intro line hline hmem
    obtain ⟨row, hrow, rfl⟩ := List.mem_map.1 hline
    rcases mem_join hmem with heq | ⟨field, hfield, hin⟩
    · exact absurd heq (by decide)
    · exact (h row hrow field hfield).2 hin
  have hwritten : written table = (table.map (join [','])).flatMap (· ++ ['\n']) := by
    rw [written, List.flatMap_map]
  have hcut : ∀ row ∈ table, cut ',' (join [','] row) = row := fun row hrow =>
    cut_join (hne row hrow) fun field hfield => (h row hrow field hfield).1
  rw [readTable, linesOf, hwritten, cut_flatMap_lines hlines, List.dropLast_concat, List.map_map]
  exact (List.map_congr_left hcut).trans (List.map_id table)

/-! ## §2 The table of a graph -/

/-- The row of column heads. -/
def heads (weights : Bool) : List Text :=
  ["Source".toList, "Target".toList] ++ if weights then ["Weight".toList] else []

/-- The row of an edge. -/
def fieldsOf (weights : Bool) (e : Name × Name × Weight) : List Text :=
  [e.1, e.2.1] ++ if weights then [decimal e.2.2.toNat] else []

/-- The column heads and the edges of a graph. -/
def table (g : Graph) (weights : Bool) : List (List Text) :=
  heads weights :: g.edges.map (fieldsOf weights)

theorem csv_eq_written (g : Graph) (weights : Bool) :
    csv g weights = written (table g weights) := by
  have hrow : csvRow weights = fun e => join [','] (fieldsOf weights e) ++ ['\n'] := by
    funext e
    cases weights <;> simp [csvRow, fieldsOf, join]
  have hhead : csvHead weights = join [','] (heads weights) ++ ['\n'] := by
    cases weights <;> rfl
  rw [csv, written, table, List.flatMap_cons, List.flatMap_map, hhead, hrow]

theorem isField_decimal (n : Nat) : IsField (decimal n) := by
  constructor <;> intro hmem
  all_goals exact absurd (Decodable.isDigit_of_mem_decimal n _ hmem) (by decide)

/-- The names of the classes that edges join can be fields. -/
def Separable (g : Graph) : Prop :=
  ∀ s t w, g.weight? s t = some w → IsField s ∧ IsField t

theorem isField_of_mem_table (h : Separable g) {row : List Text} (hrow : row ∈ table g weights)
    {field : Text} (hfield : field ∈ row) : IsField field := by
  rcases List.mem_cons.1 hrow with rfl | hrow
  · have hheads : ∀ f ∈ heads weights, IsField f := by cases weights <;> decide
    exact hheads field hfield
  · obtain ⟨⟨s, t, w⟩, hedge, rfl⟩ := List.mem_map.1 hrow
    obtain ⟨hs, ht⟩ := h s t w (Graph.mem_edges.1 hedge)
    have hcases : field = s ∨ field = t ∨ field = decimal w.toNat := by
      cases weights <;> simp [fieldsOf] at hfield <;> tauto
    rcases hcases with rfl | rfl | rfl
    · exact hs
    · exact ht
    · exact isField_decimal _

theorem ne_nil_of_mem_table {row : List Text} (hrow : row ∈ table g weights) : row ≠ [] := by
  rcases List.mem_cons.1 hrow with rfl | hrow
  · exact List.cons_ne_nil _ _
  · obtain ⟨e, -, rfl⟩ := List.mem_map.1 hrow
    exact List.cons_ne_nil _ _

/-- The table of a graph is had back from its text. -/
theorem readTable_csv (h : Separable g) (weights : Bool) :
    readTable (csv g weights) = table g weights := by
  rw [csv_eq_written]
  exact readTable_written (fun _ hrow => ne_nil_of_mem_table hrow)
    fun _ hrow _ hfield => isField_of_mem_table h hrow hfield

/-! ## §3 What the table says -/

/-- The edge that a row with a weight says. -/
def edgeOf? : List Text → Option (Name × Name × Nat)
  | [source, target, weight] => (readDecimal weight).map fun n => (source, target, n)
  | _ => none

/-- An edge with its weight as a number. -/
def numbered (e : Name × Name × Weight) : Name × Name × Nat := (e.1, e.2.1, e.2.2.toNat)

theorem edgeOf?_fieldsOf (e : Name × Name × Weight) :
    edgeOf? (fieldsOf true e) = some (numbered e) := by
  simp [fieldsOf, edgeOf?, readDecimal_decimal, numbered]

theorem mapM_edgeOf? (edges : List (Name × Name × Weight)) :
    (edges.map (fieldsOf true)).mapM edgeOf? = some (edges.map numbered) := by
  induction edges with
  | nil => rfl
  | cons e edges ih => simp [edgeOf?_fieldsOf, ih]

/-- A row comes before another: by the bytes of the source, then by those of the target. -/
def RowBefore (a b : Name × Name × Nat) : Prop :=
  Utf8.encode a.1 < Utf8.encode b.1 ∨ (a.1 = b.1 ∧ Utf8.encode a.2.1 < Utf8.encode b.2.1)

theorem rowBefore_numbered {a b : Name × Name × Weight} :
    RowBefore (numbered a) (numbered b) ↔ Graph.EndsBefore (ends a) (ends b) := by
  rw [RowBefore, Utf8.encode_lt_iff, Utf8.encode_lt_iff, Graph.EndsBefore, Prod.lex_def]
  rfl

theorem totalWeight_eq_sum (g : Graph) :
    g.totalWeight = ((g.edges.map numbered).map (·.2.2)).sum := by
  have hfold : ∀ (edges : List (Name × Name × Weight)) (n : Nat),
      edges.foldl (fun n e => n + e.2.2.toNat) n = n + ((edges.map numbered).map (·.2.2)).sum := by
    intro edges
    induction edges with
    | nil => exact fun _ => rfl
    | cons e edges ih =>
      intro n
      rw [List.foldl_cons, ih, List.map_cons, List.map_cons, List.sum_cons, numbered,
        Nat.add_assoc]
  rw [Graph.totalWeight, hfold, Nat.zero_add]

/-- What the comma-separated values say of a graph, by the rows that are read from them. -/
structure Tabular (g : Graph) (rows : List (Name × Name × Nat)) : Prop where
  /-- The heads come first. -/
  head : (readTable (csv g true)).head? = some (heads true)
  /-- Every line after them is read as an edge. -/
  read : ((readTable (csv g true)).drop 1).mapM edgeOf? = some rows
  /-- The rows are the edges of the graph, -/
  edges : ∀ s t n, (s, t, n) ∈ rows ↔ (g.weight? s t).map UInt32.toNat = some n
  /-- in order, and so each of them once. -/
  sorted : rows.Pairwise RowBefore
  /-- There are as many of them as edges. -/
  count : rows.length = g.edgeCount
  /-- Their weights add up to that of the graph. -/
  total : (rows.map (·.2.2)).sum = g.totalWeight
  /-- Without weights the text is that of the table without its third column. -/
  narrowed : csv g false = written ((readTable (csv g true)).map fun row => row.eraseIdx 2)

/-- **The comma-separated values are a faithful table of the edges** where no name holds a comma or
a line feed. -/
theorem tabular_csv (h : Separable g) : Tabular g (g.edges.map numbered) := by
  have hread := readTable_csv h true
  constructor
  case head => rw [hread, table, List.head?_cons]
  case read =>
    rw [hread, table, List.drop_succ_cons, List.drop_zero]
    exact mapM_edgeOf? g.edges
  case edges =>
    intro s t n
    rw [List.mem_map, Option.map_eq_some_iff]
    constructor
    · rintro ⟨⟨s', t', w⟩, hedge, he⟩
      cases he
      exact ⟨w, Graph.mem_edges.1 hedge, rfl⟩
    · rintro ⟨w, hw, rfl⟩
      exact ⟨(s, t, w), Graph.mem_edges.2 hw, rfl⟩
  case sorted =>
    have hends := List.pairwise_map.1 (Graph.edges_pairwise g)
    exact List.pairwise_map.2 (hends.imp rowBefore_numbered.2)
  case count => rw [List.length_map, Graph.edgeCount_eq_length]
  case total => exact (totalWeight_eq_sum g).symm
  case narrowed =>
    have hrow : (fun row : List Text => row.eraseIdx 2) ∘ fieldsOf true = fieldsOf false := rfl
    rw [hread, csv_eq_written, table, table, List.map_cons, List.map_map, hrow]
    rfl

/-- A graph with a class without a name, a class that ASCII cannot write, and an edge that has the
greatest weight. -/
def mixedGraph : Graph :=
  Graph.empty.mergeAll [(['é'], SortedMap.empty.insert ['z'] 12),
    (['z'], SortedMap.empty.insert ['é'] 0xFFFFFFFF), (['z'], SortedMap.empty.insert [] 3),
    (['z'], SortedMap.empty.insert ['é'] 5)]

theorem edges_mixedGraph : mixedGraph.edges
    = [(['z'], [], 3), (['z'], ['é'], 0xFFFFFFFF), (['é'], ['z'], 12)] := by
  decide +kernel

theorem separable_mixedGraph : Separable mixedGraph := by
  intro s t w h
  have hedge := Graph.mem_edges.2 h
  rw [edges_mixedGraph] at hedge
  have hall : ∀ e ∈ [(['z'], [], (3 : Weight)), (['z'], ['é'], 0xFFFFFFFF), (['é'], ['z'], 12)],
      IsField e.1 ∧ IsField e.2.1 := by decide
  exact hall _ hedge

/-- The bytes of `z` come before those of `é`, and the row of a class without a name is read. -/
theorem tabular_mixedGraph : Separable mixedGraph ∧
    Tabular mixedGraph [(['z'], [], 3), (['z'], ['é'], 4294967295), (['é'], ['z'], 12)] := by
  have htabular := tabular_csv separable_mixedGraph
  rw [edges_mixedGraph] at htabular
  exact ⟨separable_mixedGraph, htabular⟩

end Export

end ClassGraph
