/-
ClassGraph.Path — file paths as byte strings: joining, comparing by
components, and what remains of a path below a root.

A path is cut at its slashes into segments. Empty segments and lone dots
carry no meaning, save a lone dot that opens a relative path: that one is
the component `here`. Two spellings with the same components are the same
path for comparing, but the text that remains below a root is kept as it was
written (`below?`): only what is idle at its ends is left out. Main
statement: `after_isSome_iff` — segments can be read off the front of others
exactly when they begin the ones that carry meaning.
-/
import ClassGraph.Text.Utf8

namespace ClassGraph

/-- A file path. -/
abbrev Path := Bytes

/-- What stands between two slashes of a path. -/
abbrev Segment := Bytes

/-- How the contents of files are had: the bytes at a path, or why there are none. -/
abbrev Contents := Path → Except Text Bytes

namespace Path

def slash : UInt8 := 0x2F

def dot : Segment := [0x2E]

def dotDot : Segment := [0x2E, 0x2E]

def isAbsolute (p : Path) : Bool := p.head? == some slash

/-- The path `q` as seen from the directory `p`; an absolute `q` stands for itself. -/
def extend (p q : Path) : Path :=
  if isAbsolute q then q
  else if p.isEmpty || p.getLast? == some slash then p ++ q
  else p ++ slash :: q

/-- The path as text for messages, bytes that are not text shown as U+FFFD. -/
def display (p : Path) : Text := Utf8.lenient p

def ofText (s : Text) : Path := Utf8.encode s

/-! ## §1 Components -/

/-- What a path is made of, for comparing. -/
inductive Component where
  /-- The root of the file system. -/
  | root
  /-- A lone dot that opens a relative path. -/
  | here
  /-- A segment, the parent segment included. -/
  | named (s : Segment)
  deriving DecidableEq, Repr

/-- Whether a segment carries no meaning inside a path. -/
def isIdle (s : Segment) : Bool := s.isEmpty || s == dot

/-- How a path opens, and the segments after that. -/
def opening (p : Path) : Option Component × List Segment :=
  match p with
  | [] => (none, [])
  | b :: rest =>
    if b = slash then (some .root, cut slash rest)
    else
      match cut slash (b :: rest) with
      | [] => (none, [])
      | first :: others => if first = dot then (some .here, others) else (none, first :: others)

def names (segments : List Segment) : List Segment := segments.filter fun s => !isIdle s

/-- The components of a path, in order. -/
def components (p : Path) : List Component :=
  (opening p).1.toList ++ (names (opening p).2).map .named

/-! ## §2 Below a root -/

def dropIdleStart (segments : List Segment) : List Segment := segments.dropWhile isIdle

/-- The segments without the idle ones they end with. -/
def dropIdleEnd (segments : List Segment) : List Segment :=
  (segments.reverse.dropWhile isIdle).reverse

/-- The segments that follow once `wanted` has been read off the front, idle segments skipped. -/
def after (wanted : List Segment) (segments : List Segment) : Option (List Segment) :=
  match wanted, segments with
  | [], segments => some segments
  | _ :: _, [] => none
  | w :: ws, s :: segments =>
    if isIdle s then after (w :: ws) segments
    else if s = w then after ws segments
    else none

/-- A path without what is idle at its end. -/
def trimmed (p : Path) : Path :=
  match opening p with
  | (some .root, segments) => slash :: join [slash] (dropIdleEnd segments)
  | (some .here, segments) => join [slash] (dot :: dropIdleEnd segments)
  | (_, segments) => join [slash] (dropIdleEnd segments)

/-- The text of `p` below `root`, as it is written there; none where `p` does not lie below. An
empty root takes nothing off the front. -/
def below? (root p : Path) : Option Path :=
  let (start, segments) := opening root
  let (start', segments') := opening p
  if start = none ∧ names segments = [] then some (trimmed p)
  else if start = start' then
    (after (names segments) segments').map fun rest =>
      join [slash] (dropIdleEnd (dropIdleStart rest))
  else none

/-- The last component, where it names something other than a parent. -/
def fileName? (p : Path) : Option Segment :=
  match (components p).getLast? with
  | some (.named s) => if s = dotDot then none else some s
  | _ => none

theorem after_isSome_iff (wanted segments : List Segment) (h : ∀ w ∈ wanted, isIdle w = false) :
    (after wanted segments).isSome = true ↔ wanted <+: names segments := by
  fun_induction after wanted segments with
  | case1 segments => simp
  | case2 w ws => simp [names]
  | case3 w ws s segments hs ih => rw [ih h]; simp [names, hs]
  | case4 ws s segments hs ih =>
    rw [ih fun w hw => h w (List.mem_cons_of_mem _ hw)]
    simp [names, hs]
  | case5 w ws s segments hs hne =>
    have : (names (s :: segments)) = s :: names segments := by simp [names, hs]
    simp [this, List.cons_prefix_cons, Ne.symm hne]

end Path

end ClassGraph
