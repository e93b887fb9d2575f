/-
ClassGraph.Pattern.Reader — reading a pattern, one character after another.

A reader holds what is open: the groups around, the branches and the items
of the innermost one, the brackets, and a mode for the construct that the
next character belongs to. `Reader.step` takes one character; it may look at
what follows, but only to decide. Reading a text is running the steps, and the
state is all that is kept of what has been read.
-/
import ClassGraph.Pattern.Bracket

namespace ClassGraph

/-! ## §1 What is open -/

/-- A finished part of a pattern, and how deep constructs are nested in it. -/
structure Piece where
  pattern : Pattern
  height : Nat
  deriving DecidableEq

/-- What stands in a branch. -/
inductive Item where
  /-- A part that a repetition may follow. -/
  | piece (p : Piece)
  /-- A change of flags. -/
  | setting
  deriving DecidableEq

/-- The nesting height of an item. -/
def Item.height : Item → Nat
  | piece p => p.height
  | setting => 0

/-- The pattern of an item, where it is one. -/
def Item.pattern? : Item → Option Pattern
  | piece p => some p.pattern
  | setting => none

/-- A group that is being read. -/
structure Group where
  /-- Its finished branches, last first. -/
  branches : List Piece
  /-- The items of the branch being read, last first. -/
  items : List Item
  deriving DecidableEq

namespace Group

def start : Group := ⟨[], []⟩

/-- The branch being read, as it stands. -/
def branch (g : Group) : Piece :=
  let height := tallest (g.items.map Item.height)
  ⟨Pattern.cats (g.items.reverse.filterMap Item.pattern?),
    if g.items.length ≤ 1 then height else height + 1⟩

def divide (g : Group) : Group := ⟨g.branch :: g.branches, []⟩

/-- What the group stands for. -/
def content (g : Group) : Piece :=
  match g.branches with
  | [] => g.branch
  | branches =>
    let all := (g.branch :: branches).reverse
    ⟨Pattern.alts (all.map (·.pattern)), tallest (all.map (·.height)) + 1⟩

def push (g : Group) (i : Item) : Group := { g with items := i :: g.items }

/-- The group with its last item repeated. -/
def repeatLast (g : Group) (least : Nat) (most : Option Nat) : Except PatternError Group :=
  match g.items with
  | .piece p :: items =>
    let p : Piece := ⟨.times p.pattern least most, p.height + 1⟩
    .ok { g with items := .piece p :: items }
  | _ => .error .nothingToRepeat

end Group

/-- Where an atom goes that is being read. -/
inductive Slot where
  /-- Into the branch. -/
  | branch
  /-- Between brackets, as a member or the start of a range. -/
  | member
  /-- Between brackets, as the end of a range. -/
  | rangeEnd (low : Char)
  deriving DecidableEq

/-- The construct that the next character belongs to. -/
inductive Mode where
  /-- A branch. -/
  | plain
  /-- A branch, after bounds of a repetition: a question mark belongs to them. -/
  | counted
  /-- A group, after its opening. -/
  | opened
  /-- A group, after its opening and a question mark. -/
  | asked
  /-- A group, after its opening, a question mark and `P`. -/
  | askedName
  /-- The name of a group, last character first. -/
  | naming (name : Text)
  /-- Flags: the letters so far, whether they are being turned off, whether the sign for that is
  the latest character, and the flags that result. -/
  | setting (seen : Text) (off dangling : Bool) (flags : Flags)
  /-- Bounds: the first where it is done, the digits of the open one, whether blanks followed. -/
  | counting (low? : Option Nat) (open? : Option Nat) (blanks : Bool)
  /-- An escape. -/
  | escaped (slot : Slot)
  /-- The brace after the mark of a word boundary. -/
  | placeBrace
  /-- The name between such braces, last character first. -/
  | placeName (name : Text)
  /-- A number of `digits` digits, or one between braces. -/
  | hexStart (slot : Slot) (digits : Nat)
  /-- The digits of such a number: how many are left, and the value so far. -/
  | hexDigits (slot : Slot) (left : Nat) (asByte : Bool) (value : Nat)
  /-- A number between braces. -/
  | hexBrace (slot : Slot) (value? : Option Nat)
  /-- The name of a set, in one letter or between braces. -/
  | nameStart (slot : Slot) (negated : Bool)
  /-- The name of a set between braces, last character first. -/
  | nameBrace (slot : Slot) (negated : Bool) (name : Text)
  /-- Brackets, after their opening. -/
  | bracketStart
  /-- Brackets, where hyphens and a closing bracket stand for themselves. -/
  | bracketFront
  /-- Brackets. -/
  | bracket
  /-- Brackets, after an atom with which a range may begin. -/
  | bracketAtom (a : Atom)
  /-- Brackets, after the hyphen of a range. -/
  | rangeEnd (low : Char)
  deriving DecidableEq

/-- Whether blanks and comments may stand where the mode is in force, under `spaced`. -/
def Mode.allowsBlanks : Mode → Bool
  | asked | askedName | naming _ | setting .. | escaped _ | placeBrace => false
  | _ => true

/-- The state of reading. -/
structure Reader where
  flags : Flags
  /-- The names of groups so far. -/
  names : List Text
  /-- The groups around, innermost first, with the flags to restore after the group inside. -/
  outer : List (Group × Flags)
  group : Group
  /-- The open brackets, innermost first. -/
  brackets : List Bracket
  mode : Mode
  /-- Whether a comment is being read. -/
  comment : Bool
  /-- How many characters have been taken in advance. -/
  taken : Nat
  deriving DecidableEq

namespace Reader

def start : Reader := ⟨Flags.usual, [], [], Group.start, [], .plain, false, 0⟩

/-! ## §2 Finished constructs -/

/-- The reader after a finished part of the branch. -/
def push (r : Reader) (p : Piece) : Reader :=
  { r with group := r.group.push (.piece p), mode := .plain }

/-- The reader inside a new group. -/
def enter (r : Reader) (flags : Flags) : Reader :=
  { r with
    flags := flags, outer := (r.group, r.flags) :: r.outer, group := Group.start, mode := .plain }

/-- The reader after the end of the innermost group. -/
def leave (r : Reader) : Except PatternError Reader :=
  match r.outer with
  | [] => .error .unopenedGroup
  | (group, flags) :: outer =>
    let inner := r.group.content
    .ok { r with
      flags := flags, outer := outer, mode := .plain,
      group := group.push (.piece ⟨inner.pattern, inner.height + 1⟩) }

/-- The reader after a repetition. -/
def repeated (r : Reader) (least : Nat) (most : Option Nat) (mode : Mode) :
    Except PatternError Reader :=
  (r.group.repeatLast least most).map fun g => { r with group := g, mode := mode }

/-- The reader with one more member in the innermost brackets. -/
def addMember (r : Reader) (part : SetPart) : Reader :=
  match r.brackets with
  | [] => r
  | b :: outer => { r with brackets := b.add part :: outer, mode := .bracket }

/-- The reader after an atom. -/
def deliver (r : Reader) (slot : Slot) (a : Atom) : Except PatternError Reader :=
  match slot with
  | .branch => (a.pattern r.flags).map fun p => r.push ⟨p, 0⟩
  | .member => .ok { r with mode := .bracketAtom a }
  | .rangeEnd low =>
    match a.char? r.flags with
    | some high => if low ≤ high then .ok (r.addMember ⟨.range low high, 0⟩) else .error .badMember
    | none => .error .badMember

/-- The reader after a character that is written by its number. -/
def deliverNumber (r : Reader) (slot : Slot) (n : Nat) (asByte : Bool) :
    Except PatternError Reader :=
  if n.isValidChar then r.deliver slot (.literal (Char.ofNat n) asByte) else .error .badEscape

/-- The reader after the name of a set. -/
def deliverNamed (r : Reader) (slot : Slot) (negated : Bool) (s : Option CharSet) :
    Except PatternError Reader :=
  match s with
  | some s => r.deliver slot (.named s negated)
  | none => .error .unknownSet

/-! ## §3 Groups -/

/-- Whether a character may stand in the name of a group. -/
def isNameChar (first : Bool) (c : Char) : Bool :=
  c == '_' || Unicode.isAlphabetic c
    || (!first && (c == '.' || c == '[' || c == ']' || Unicode.isNumber c))

/-- One character of flags. -/
def settingStep (r : Reader) (seen : Text) (off dangling : Bool) (flags : Flags) (c : Char) :
    Except PatternError Reader :=
  if c = ':' then if dangling then .error .badFlags else .ok (r.enter flags)
  else if c = ')' then
    if dangling then .error .badFlags
    else if seen.isEmpty then .error .nothingToRepeat
    else .ok { r with flags := flags, group := r.group.push .setting, mode := .plain }
  else if c ∈ seen then .error .badFlags
  else if c = '-' then .ok { r with mode := .setting (c :: seen) true true flags }
  else
    match flags.set? c (!off) with
    | some flags => .ok { r with mode := .setting (c :: seen) off false flags }
    | none => .error .badFlags

/-- One character after the opening of a group and a question mark. -/
def askedStep (r : Reader) (c : Char) : Except PatternError Reader :=
  if c = '=' ∨ c = '!' then .error .lookAround
  else if c = 'P' then .ok { r with mode := .askedName }
  else if c = '<' then .ok { r with mode := .naming [] }
  else r.settingStep [] false false r.flags c

/-- One character of the name of a group. -/
def namingStep (r : Reader) (name : Text) (c : Char) : Except PatternError Reader :=
  if c = '>' then
    if name.isEmpty || r.names.contains name then .error .badName
    else .ok { r.enter r.flags with names := name :: r.names }
  else if isNameChar name.isEmpty c then .ok { r with mode := .naming (c :: name) }
  else .error .badName

/-! ## §4 Repetitions -/

def maxBound : Nat := UInt32.size - 1

/-- The reader after the bounds of a repetition. -/
def bounded (r : Reader) (least : Nat) (most : Option Nat) : Except PatternError Reader :=
  if least ≤ maxBound ∧ most.all (fun m => least ≤ m && m ≤ maxBound) then
    r.repeated least most .counted
  else .error .badCount

/-- One character of the bounds of a repetition. -/
def countingStep (r : Reader) (low? open? : Option Nat) (blanks : Bool) (c : Char) :
    Except PatternError Reader :=
  if isBlank c then .ok { r with mode := .counting low? open? true }
  else if c.isDigit then
    if blanks && open?.isSome then .error .badCount
    else .ok { r with mode := .counting low? (some (open?.getD 0 * 10 + (c.toNat - 48))) false }
  else
    match c, low?, open? with
    | ',', none, some n => .ok { r with mode := .counting (some n) none false }
    | '}', none, some n => r.bounded n (some n)
    | '}', some low, some high => r.bounded low (some high)
    | '}', some low, none => if blanks then .error .badCount else r.bounded low none
    | _, _, _ => .error .badCount

/-! ## §5 Escapes -/

/-- Whether a character has a meaning of its own in patterns. -/
def isMeta (c : Char) : Bool := c ∈ "\\.+*?()|[]\x7b\x7d^$#&-~".toList

/-- Whether an escaped character stands for itself. -/
def isPlainEscape (c : Char) : Bool :=
  isMeta c || (c.toNat < 0x80 && !c.isAlphanum && c != '<' && c != '>')

/-- The atoms of escapes in one letter. -/
def letterAtom? (c : Char) : Option Atom :=
  match c with
  | 'a' => some (.literal '\x07' false)
  | 'f' => some (.literal '\x0c' false)
  | 't' => some (.literal '\t' false)
  | 'n' => some (.literal '\n' false)
  | 'r' => some (.literal '\r' false)
  | 'v' => some (.literal '\x0b' false)
  | 'd' => some (.letter .digit false)
  | 'D' => some (.letter .digit true)
  | 's' => some (.letter .blank false)
  | 'S' => some (.letter .blank true)
  | 'w' => some (.letter .word false)
  | 'W' => some (.letter .word true)
  | 'A' => some (.anchor .textStart)
  | 'z' => some (.anchor .textEnd)
  | 'b' => some (.anchor (.word .boundary))
  | 'B' => some (.anchor (.word .inside))
  | '<' => some (.anchor (.word .start))
  | '>' => some (.anchor (.word .finish))
  | _ => none

/-- One character after a backslash. -/
def escapedStep (r : Reader) (slot : Slot) (c : Char) (rest : Text) : Except PatternError Reader :=
  if isPlainEscape c then r.deliver slot (.literal c false)
  else if c = 'x' then .ok { r with mode := .hexStart slot 2 }
  else if c = 'u' then .ok { r with mode := .hexStart slot 4 }
  else if c = 'U' then .ok { r with mode := .hexStart slot 8 }
  else if c = 'p' ∨ c = 'P' then .ok { r with mode := .nameStart slot (c == 'P') }
  else if c = 'b' ∧ slot = .branch ∧ rest.head? = some '{' then .ok { r with mode := .placeBrace }
  else
    match letterAtom? c with
    | some a => r.deliver slot a
    | none => .error .badEscape

/-- Whether a character may stand in the name of a place in words. -/
def isPlaceChar (c : Char) : Bool := c.isAlpha || c == '-'

/-- The place in words of a name. -/
def place? (name : Text) : Option WordPlace :=
  if name == "start".toList then some .start
  else if name == "end".toList then some .finish
  else if name == "start-half".toList then some .startHalf
  else if name == "end-half".toList then some .finishHalf
  else none

/-- One character between the braces after the mark of a word boundary. Where no name begins there,
the braces are the bounds of a repetition of that mark. -/
def placeStep (r : Reader) (name : Text) (c : Char) : Except PatternError Reader :=
  if isPlaceChar c then .ok { r with mode := .placeName (c :: name) }
  else if name.isEmpty then do
    let r ← r.deliver .branch (.anchor (.word .boundary))
    r.countingStep none none false c
  else if c = '}' then
    match place? name.reverse with
    | some place => r.deliver .branch (.anchor (.word place))
    | none => .error .badEscape
  else .error .badEscape

def isHex (c : Char) : Bool := c.isDigit || ('a' ≤ c && c ≤ 'f') || ('A' ≤ c && c ≤ 'F')

/-- One digit of a number with `left` digits to come, this one included. -/
def hexStep (r : Reader) (slot : Slot) (left : Nat) (asByte : Bool) (value : Nat) (c : Char) :
    Except PatternError Reader :=
  if isHex c then
    let value := value * 16 + Unicode.hexValue c
    if left ≤ 1 then r.deliverNumber slot value asByte
    else .ok { r with mode := .hexDigits slot (left - 1) asByte value }
  else .error .badEscape

/-- One character of a number between braces. -/
def hexBraceStep (r : Reader) (slot : Slot) (value? : Option Nat) (c : Char) :
    Except PatternError Reader :=
  if c = '}' then
    match value? with
    | some value => r.deliverNumber slot value false
    | none => .error .badEscape
  else if isHex c then
    .ok { r with mode := .hexBrace slot (some (value?.getD 0 * 16 + Unicode.hexValue c)) }
  else .error .badEscape

/-! ## §6 Brackets -/

/-- One character between brackets. -/
def bracketStep (r : Reader) (c : Char) (rest : Text) : Except PatternError Reader :=
  match r.brackets with
  | [] => .error .unclosedBrackets
  | b :: outer =>
    if c = '[' then
      match asciiAhead? rest with
      | some (s, negated, taken) =>
        (r.flags.finish negated s).map fun s => { r.addMember ⟨s, 0⟩ with taken := taken }
      | none => .ok { r with brackets := Bracket.start :: b :: outer, mode := .bracketStart }
    else if c = ']' then
      (b.close r.flags).map fun part =>
        if outer.isEmpty then { r with brackets := [] }.push ⟨.one part.set, part.height⟩
        else { r with brackets := outer }.addMember part
    else if c = '\\' then .ok { r with mode := .escaped .member }
    else
      match SetOp.ofDoubled? c with
      | some op =>
        if rest.head? = some c then
          .ok { r with brackets := b.operate r.flags op :: outer, mode := .bracket, taken := 1 }
        else r.deliver .member (.literal c false)
      | none => r.deliver .member (.literal c false)

/-- One character where hyphens and a closing bracket stand for themselves. -/
def frontStep (r : Reader) (c : Char) (rest : Text) : Except PatternError Reader :=
  if c = '-' then .ok { r.addMember ⟨.single '-', 0⟩ with mode := .bracketFront }
  else if c = ']' ∧ r.brackets.head?.all (fun b => b.members.isEmpty) then
    .ok (r.addMember ⟨.single ']', 0⟩)
  else r.bracketStep c rest

/-- One character after the opening of brackets. -/
def bracketStartStep (r : Reader) (c : Char) (rest : Text) : Except PatternError Reader :=
  match r.brackets with
  | [] => .error .unclosedBrackets
  | b :: outer =>
    if c = '^' then
      .ok { r with brackets := { b with negated := true } :: outer, mode := .bracketFront }
    else r.frontStep c rest

/-- One character after an atom between brackets. -/
def afterAtomStep (r : Reader) (a : Atom) (c : Char) (rest : Text) : Except PatternError Reader :=
  if c = '-' ∧ afterHyphen r.flags rest ≠ some ']' ∧ afterHyphen r.flags rest ≠ some '-' then
    match a.char? r.flags with
    | some low => .ok { r with mode := .rangeEnd low }
    | none => .error .badMember
  else do
    let s ← a.member r.flags
    (r.addMember ⟨s, 0⟩).bracketStep c rest

/-! ## §7 Branches -/

/-- The reader with a character taken in advance where a question mark follows. -/
def reluctant (rest : Text) (r : Reader) : Reader :=
  if rest.head? = some '?' then { r with taken := 1 } else r

/-- One character of a branch. -/
def plainStep (r : Reader) (c : Char) (rest : Text) : Except PatternError Reader :=
  match c with
  | '(' => .ok { r with mode := .opened }
  | ')' => r.leave
  | '|' => .ok { r with group := r.group.divide, mode := .plain }
  | '[' => .ok { r with brackets := [Bracket.start], mode := .bracketStart }
  | '?' => (r.repeated 0 (some 1) .plain).map (reluctant rest)
  | '*' => (r.repeated 0 none .plain).map (reluctant rest)
  | '+' => (r.repeated 1 none .plain).map (reluctant rest)
  | '{' => .ok { r with mode := .counting none none false }
  | '\\' => .ok { r with mode := .escaped .branch }
  | '.' => r.deliver .branch .dot
  | '^' => r.deliver .branch (.anchor .lineStart)
  | '$' => r.deliver .branch (.anchor .lineEnd)
  | c => r.deliver .branch (.literal c false)

/-- One character in the mode in force. -/
def act (r : Reader) (c : Char) (rest : Text) : Except PatternError Reader :=
  match r.mode with
  | .plain => r.plainStep c rest
  | .counted => if c = '?' then .ok { r with mode := .plain } else r.plainStep c rest
  | .opened =>
    if c = '?' then .ok { r with mode := .asked } else (r.enter r.flags).plainStep c rest
  | .asked => r.askedStep c
  | .askedName => if c = '<' then .ok { r with mode := .naming [] } else .error .badFlags
  | .naming name => r.namingStep name c
  | .setting seen off dangling flags => r.settingStep seen off dangling flags c
  | .counting low? open? blanks => r.countingStep low? open? blanks c
  | .escaped slot => r.escapedStep slot c rest
  | .placeBrace => .ok { r with mode := .placeName [] }
  | .placeName name => r.placeStep name c
  | .hexStart slot digits =>
    if c = '{' then .ok { r with mode := .hexBrace slot none }
    else r.hexStep slot digits (digits == 2) 0 c
  | .hexDigits slot left asByte value => r.hexStep slot left asByte value c
  | .hexBrace slot value? => r.hexBraceStep slot value? c
  | .nameStart slot negated =>
    if c = '{' then .ok { r with mode := .nameBrace slot negated [] }
    else if c = '\\' then .error .badEscape
    else r.deliverNamed slot negated (CharSet.named? [c])
  | .nameBrace slot negated name =>
    if c = '}' then r.deliverNamed slot negated (CharSet.braced? name.reverse)
    else .ok { r with mode := .nameBrace slot negated (c :: name) }
  | .bracketStart => r.bracketStartStep c rest
  | .bracketFront => r.frontStep c rest
  | .bracket => r.bracketStep c rest
  | .bracketAtom a => r.afterAtomStep a c rest
  | .rangeEnd low =>
    if c = '\\' then .ok { r with mode := .escaped (.rangeEnd low) }
    else r.deliver (.rangeEnd low) (.literal c false)

/-! ## §8 Texts -/

/-- One character, of which `rest` follows. -/
def step (r : Reader) (c : Char) (rest : Text) : Except PatternError Reader :=
  if 0 < r.taken then .ok { r with taken := r.taken - 1 }
  else if r.comment then .ok { r with comment := c != '\n' }
  else if r.flags.spaced && r.mode.allowsBlanks && isBlank c then .ok r
  else if r.flags.spaced && r.mode.allowsBlanks && c == '#' then .ok { r with comment := true }
  else r.act c rest

/-- The characters of a text, one after another. -/
def run (r : Reader) : Text → Except PatternError Reader
  | [] => .ok r
  | c :: rest => (r.step c rest).bind fun r => run r rest

/-- The greatest height of a pattern. -/
def maxHeight : Nat := 250

/-- The pattern that has been read once the text has ended. -/
def finish (r : Reader) : Except PatternError Pattern :=
  match r.mode with
  | .plain | .counted =>
    if r.outer.isEmpty then
      let whole := r.group.content
      if whole.height ≤ maxHeight then .ok whole.pattern else .error .tooDeep
    else .error .unclosedGroup
  | .opened | .asked | .askedName | .naming _ | .setting .. => .error .unclosedGroup
  | .counting .. => .error .badCount
  | .bracketStart | .bracketFront | .bracket | .bracketAtom _ | .rangeEnd _ =>
    .error .unclosedBrackets
  | _ => .error .badEscape

end Reader

/-- The pattern that a text writes down. -/
def Pattern.read (s : Text) : Except PatternError Pattern :=
  (Reader.start.run s).bind Reader.finish

end ClassGraph
