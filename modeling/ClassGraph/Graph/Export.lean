/-
ClassGraph.Graph.Export — the written forms of a graph.

Three forms: rows of comma-separated values, one per edge; a JSON object of
objects; and a digraph in the DOT language, drawn from the numbered view.
Names stand in the first form as they are; in the second and third they are
quoted, each form with escapes of its own (`Export.jsonQuoted`,
`Export.dotQuoted`).
-/
import ClassGraph.Graph.Indexed

namespace ClassGraph

namespace Export

/-! ## §1 Comma-separated values -/

/-- The line of column heads. -/
def csvHead (weights : Bool) : Text :=
  if weights then "Source,Target,Weight\n".toList else "Source,Target\n".toList

/-- The line of an edge. -/
def csvRow (weights : Bool) (e : Name × Name × Weight) : Text :=
  e.1 ++ [','] ++ e.2.1 ++ (if weights then ',' :: decimal e.2.2.toNat else []) ++ ['\n']

/-- The graph as comma-separated values. -/
def csv (g : Graph) (weights : Bool) : Text :=
  csvHead weights ++ g.edges.flatMap (csvRow weights)

/-! ## §2 JSON -/

/-- The hexadecimal digit with the value `n`, for `n` below sixteen. -/
def hexDigit (n : Nat) : Char := if n < 10 then Char.ofNat (48 + n) else Char.ofNat (87 + n)

/-- A character inside a JSON string. -/
def jsonEscape (c : Char) : Text :=
  if c = '"' then ['\\', '"']
  else if c = '\\' then ['\\', '\\']
  else if c = '\n' then ['\\', 'n']
  else if c = '\r' then ['\\', 'r']
  else if c = '\t' then ['\\', 't']
  else if c.toNat = 8 then ['\\', 'b']
  else if c.toNat = 12 then ['\\', 'f']
  else if c.toNat < 32 then
    ['\\', 'u', '0', '0', hexDigit (c.toNat / 16), hexDigit (c.toNat % 16)]
  else [c]

def jsonQuoted (s : Text) : Text := '"' :: s.flatMap jsonEscape ++ ['"']

/-- A JSON object, one member a line, the members indented by `indent` and its end by less. -/
def jsonObject (indent outdent : Text) (members : List (Text × Text)) : Text :=
  if members.isEmpty then ['{', '}']
  else
    ['{', '\n']
      ++ join [',', '\n'] (members.map fun (k, v) => indent ++ jsonQuoted k ++ [':', ' '] ++ v)
      ++ ['\n'] ++ outdent ++ ['}']

/-- The members of a row. -/
def jsonRow (row : Counts) : Text :=
  jsonObject "    ".toList "  ".toList (row.toList.map fun (target, w) => (target, decimal w.toNat))

/-- The graph as a JSON object of objects, with a line break after it. -/
def json (g : Graph) : Text :=
  jsonObject "  ".toList [] (g.rows.toList.map fun (source, row) => (source, jsonRow row)) ++ ['\n']

/-! ## §3 DOT -/

/-- A character inside a DOT string; a line feed becomes the left-justified line break. -/
def dotEscape (c : Char) : Text :=
  if c = '"' then ['\\', '"']
  else if c = '\\' then ['\\', '\\']
  else if c = '\n' then ['\\', 'l']
  else [c]

def dotQuoted (s : Text) : Text := '"' :: s.flatMap dotEscape ++ ['"']

def dotLabel (s : Text) : Text := "[ label = ".toList ++ dotQuoted s ++ " ]".toList

/-- The line of a class and its number. -/
def dotNode (entry : Name × Nat) : Text :=
  "    ".toList ++ decimal entry.2 ++ [' '] ++ dotLabel entry.1 ++ ['\n']

/-- The line of an edge. -/
def dotEdge (weights : Bool) (e : Nat × Nat × Weight) : Text :=
  "    ".toList ++ decimal e.1 ++ " -> ".toList ++ decimal e.2.1 ++ [' ']
    ++ (if weights then dotLabel (decimal e.2.2.toNat) else "[ ]".toList) ++ ['\n']

/-- The graph as a DOT digraph. -/
def dot (g : Graph) (weights : Bool) : Text :=
  let v := g.indexed
  "digraph \x7b\n".toList ++ v.nodes.zipIdx.flatMap dotNode ++ v.edges.flatMap (dotEdge weights)
    ++ "\x7d\n".toList

end Export

/-- A written form of the graph. -/
inductive Format where
  /-- One row per edge. -/
  | csv
  /-- An object of objects. -/
  | json
  /-- A digraph. -/
  | dot
  deriving DecidableEq, Repr

/-- The graph in a written form, with or without weights. JSON always has them. -/
def Graph.write (g : Graph) (format : Format) (weights : Bool) : Text :=
  match format with
  | .csv => Export.csv g weights
  | .json => Export.json g
  | .dot => Export.dot g weights

end ClassGraph
