/-
ClassGraph.Settings.Json — reading JSON, one character after another.

A reader holds the open arrays and objects and a mode for what the next
character belongs to, so reading a text is running one step per character.
The form is strict: no comments, no trailing commas, no bare control
characters in strings. Numbers are checked and dropped, since no setting is
a number. A string may escape half of a surrogate pair; such a string is
well-formed but holds no text, which is kept as an absent text.
-/
import ClassGraph.Text.Basic

namespace ClassGraph

/-- A JSON value. -/
inductive JsonValue where
  | null
  | bool (b : Bool)
  | number
  /-- A string; without a text where it escapes half a surrogate pair. -/
  | text (s : Option Text)
  | array (elements : List JsonValue)
  | object (members : List (Option Text × JsonValue))

/-- An array or an object that is being read. -/
inductive JsonFrame where
  /-- An array: its elements so far, last first. -/
  | array (elements : List JsonValue)
  /-- An object: its members so far, last first, and the latest key. -/
  | object (members : List (Option Text × JsonValue)) (key : Option Text)

/-- Where in a number a reader is. -/
inductive NumberPart where
  | sign
  | zero
  | digits
  | point
  | fraction
  | exponent
  | exponentSign
  | exponentDigits
  deriving DecidableEq, Repr

/-- A string that is being read. -/
structure JsonString where
  /-- Whether it is the key of a member. -/
  isKey : Bool
  /-- The text so far, last character first. -/
  done : Text
  /-- The first half of a surrogate pair, where one was just escaped. -/
  half? : Option Nat
  /-- Whether all that was read is text. -/
  sound : Bool

/-! ## §1 Strings -/

namespace JsonString

/-- The string with one more character that is written as itself or by a letter. -/
def push (s : JsonString) (c : Char) : JsonString :=
  { s with done := c :: s.done, half? := none, sound := s.sound && s.half?.isNone }

/-- The string with one more code unit that is written by its number. -/
def pushUnit (s : JsonString) (n : Nat) : JsonString :=
  match s.half? with
  | some high =>
    if 0xDC00 ≤ n ∧ n < 0xE000 then
      let c := Char.ofNat (0x10000 + (high - 0xD800) * 0x400 + (n - 0xDC00))
      { s with done := c :: s.done, half? := none }
    else { s with half? := none, sound := false }
  | none =>
    if n < 0xD800 ∨ 0xE000 ≤ n then { s with done := Char.ofNat n :: s.done }
    else if n < 0xDC00 then { s with half? := some n }
    else { s with sound := false }

/-- The text of a string that has ended. -/
def text? (s : JsonString) : Option Text :=
  if s.sound && s.half?.isNone then some s.done.reverse else none

end JsonString

/-! ## §2 Numbers -/

namespace NumberPart

/-- Whether a number may end after a part. -/
def complete : NumberPart → Bool
  | .zero | .digits | .fraction | .exponentDigits => true
  | _ => false

/-- The part that a character leads to, where it continues the number. -/
def next? (part : NumberPart) (c : Char) : Option NumberPart :=
  let opensExponent := c = 'e' ∨ c = 'E'
  match part with
  | .sign => if c = '0' then some .zero else if c.isDigit then some .digits else none
  | .zero => if c = '.' then some .point else if opensExponent then some .exponent else none
  | .digits =>
    if c.isDigit then some .digits else if c = '.' then some .point
    else if opensExponent then some .exponent else none
  | .point => if c.isDigit then some .fraction else none
  | .fraction =>
    if c.isDigit then some .fraction else if opensExponent then some .exponent else none
  | .exponent =>
    if c = '+' ∨ c = '-' then some .exponentSign
    else if c.isDigit then some .exponentDigits else none
  | .exponentSign => if c.isDigit then some .exponentDigits else none
  | .exponentDigits => if c.isDigit then some .exponentDigits else none

end NumberPart

/-! ## §3 Steps -/

/-- What the next character belongs to. -/
inductive JsonMode where
  /-- A value; an array may also end here if `first` holds. -/
  | value (first : Bool)
  /-- A key; an object may also end here if `first` holds. -/
  | key (first : Bool)
  /-- The colon after a key. -/
  | colon
  /-- What follows a value. -/
  | after
  | literal (rest : Text) (v : JsonValue)
  | number (part : NumberPart)
  | string (s : JsonString)
  /-- The character after a backslash. -/
  | escape (s : JsonString)
  /-- The digits of an escaped code unit. -/
  | unit (s : JsonString) (left value : Nat)

/-- The state of reading. -/
structure JsonReader where
  /-- The open arrays and objects, innermost first. -/
  frames : List JsonFrame
  mode : JsonMode
  /-- The whole value, once it is read. -/
  whole? : Option JsonValue

namespace JsonReader

def start : JsonReader := ⟨[], .value false, none⟩

/-- The reader after a value. -/
def put (r : JsonReader) (v : JsonValue) : JsonReader :=
  match r.frames with
  | [] => { r with mode := .after, whole? := some v }
  | .array elements :: frames =>
    { r with mode := .after, frames := .array (v :: elements) :: frames }
  | .object members key :: frames =>
    { r with mode := .after, frames := .object ((key, v) :: members) none :: frames }

/-- The reader after the end of the innermost array or object, where `bracket` ends it. -/
def close (r : JsonReader) (bracket : Char) : Option JsonReader :=
  match r.frames with
  | .array elements :: frames =>
    if bracket = ']' then some ({ r with frames := frames }.put (.array elements.reverse)) else none
  | .object members _ :: frames =>
    if bracket = '\x7d' then some ({ r with frames := frames }.put (.object members.reverse))
    else none
  | [] => none

/-- The reader after the end of a string. -/
def putString (r : JsonReader) (s : JsonString) : JsonReader :=
  if s.isKey then
    match r.frames with
    | .object members _ :: frames =>
      { r with mode := .colon, frames := .object members (s.text?) :: frames }
    | _ => r
  else r.put (.text (s.text?))

/-- The character that a letter after a backslash stands for. -/
def escaped? (c : Char) : Option Char :=
  match c with
  | '"' => some '"'
  | '\\' => some '\\'
  | '/' => some '/'
  | 'b' => some '\x08'
  | 'f' => some '\x0c'
  | 'n' => some '\n'
  | 'r' => some '\r'
  | 't' => some '\t'
  | _ => none

/-- The value of a hexadecimal digit. -/
def hexValue? (c : Char) : Option Nat :=
  if c.isDigit then some (c.toNat - 48)
  else if 'a' ≤ c ∧ c ≤ 'f' then some (c.toNat - 87)
  else if 'A' ≤ c ∧ c ≤ 'F' then some (c.toNat - 55)
  else none

def isSpace (c : Char) : Bool := c == ' ' || c == '\n' || c == '\t' || c == '\r'

/-- One character where a value is due. -/
def valueStep (r : JsonReader) (first : Bool) (c : Char) : Option JsonReader :=
  if isSpace c then some r
  else if c = ']' then if first then r.close c else none
  else if c = '[' then some { r with frames := .array [] :: r.frames, mode := .value true }
  else if c = '{' then some { r with frames := .object [] none :: r.frames, mode := .key true }
  else if c = '"' then some { r with mode := .string ⟨false, [], none, true⟩ }
  else if c = 'n' then some { r with mode := .literal ['u', 'l', 'l'] .null }
  else if c = 't' then some { r with mode := .literal ['r', 'u', 'e'] (.bool true) }
  else if c = 'f' then some { r with mode := .literal ['a', 'l', 's', 'e'] (.bool false) }
  else if c = '-' then some { r with mode := .number .sign }
  else (NumberPart.next? .sign c).map fun part => { r with mode := .number part }

/-- One character after a value. -/
def afterStep (r : JsonReader) (c : Char) : Option JsonReader :=
  if isSpace c then some r
  else if c = ',' then
    match r.frames with
    | .array _ :: _ => some { r with mode := .value false }
    | .object .. :: _ => some { r with mode := .key false }
    | [] => none
  else r.close c

/-- One character of a string. -/
def stringStep (r : JsonReader) (s : JsonString) (c : Char) : Option JsonReader :=
  if c = '"' then some (r.putString s)
  else if c = '\\' then some { r with mode := .escape s }
  else if c.toNat < 0x20 then none
  else some { r with mode := .string (s.push c) }

/-- One character after a backslash. -/
def escapeStep (r : JsonReader) (s : JsonString) (c : Char) : Option JsonReader :=
  if c = 'u' then some { r with mode := .unit s 4 0 }
  else (escaped? c).map fun c => { r with mode := .string (s.push c) }

/-- One digit of an escaped code unit with `left` digits to come, this one included. -/
def unitStep (r : JsonReader) (s : JsonString) (left value : Nat) (c : Char) : Option JsonReader :=
  (hexValue? c).map fun d =>
    let value := value * 16 + d
    if left ≤ 1 then { r with mode := .string (s.pushUnit value) }
    else { r with mode := .unit s (left - 1) value }

/-- One character. -/
def step (r : JsonReader) (c : Char) : Option JsonReader :=
  match r.mode with
  | .value first => r.valueStep first c
  | .key first =>
    if isSpace c then some r
    else if c = '"' then some { r with mode := .string ⟨true, [], none, true⟩ }
    else if first then r.close c
    else none
  | .colon =>
    if isSpace c then some r
    else if c = ':' then some { r with mode := .value false }
    else none
  | .after => r.afterStep c
  | .literal rest v =>
    match rest with
    | [] => none
    | [d] => if c = d then some (r.put v) else none
    | d :: rest => if c = d then some { r with mode := .literal rest v } else none
  | .number part =>
    match part.next? c with
    | some part => some { r with mode := .number part }
    | none => if part.complete && !c.isDigit then (r.put .number).afterStep c else none
  | .string s => r.stringStep s c
  | .escape s => r.escapeStep s c
  | .unit s left value => r.unitStep s left value c

/-- The value that has been read once the text has ended. -/
def finish (r : JsonReader) : Option JsonValue :=
  match r.frames, r.mode with
  | [], .after => r.whole?
  | [], .number part => if part.complete then some .number else none
  | _, _ => none

end JsonReader

/-- The value that a text writes down. -/
def JsonValue.read? (s : Text) : Option JsonValue :=
  (s.foldlM JsonReader.step JsonReader.start).bind JsonReader.finish

end ClassGraph
