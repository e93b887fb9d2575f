/-
ClassGraph.Command.Arguments — reading the words of a command line.

An option has a long name, perhaps a letter, and takes a value or none. A
long option is written `--name` or `--name=value`, letters stand together
after one hyphen, and the value of the last of them may follow at once or
after an equals sign. Otherwise the next word is the value, unless it looks
like an option itself. After a bare `--` all words are operands. Reading is
one step per word.
-/
import ClassGraph.Text.Basic

namespace ClassGraph

/-- What an option takes, and how often it may be given. -/
inductive OptionKind where
  /-- No value, once. -/
  | flag
  /-- One value, once. -/
  | single
  /-- One value each time. -/
  | many
  deriving DecidableEq, Repr

/-- An option of a command. -/
structure OptionSpec where
  name : Text
  letter? : Option Char
  kind : OptionKind
  deriving DecidableEq

/-- What has been read of a command line. -/
structure Arguments where
  /-- The options given, last first, by name and with their values. -/
  given : List (Text × Text)
  /-- The operands, last first. -/
  operands : List Text
  /-- The option whose value is due. -/
  due? : Option OptionSpec
  /-- Whether only operands may follow. -/
  ended : Bool
  deriving DecidableEq

namespace Arguments

def start : Arguments := ⟨[], [], none, false⟩

def has (a : Arguments) (name : Text) : Bool := a.given.any fun g => g.1 == name

/-- The values of an option, in order. -/
def values (a : Arguments) (name : Text) : List Text :=
  (a.given.reverse.filter fun g => g.1 == name).map (·.2)

/-- The value of an option that is given at most once. -/
def value? (a : Arguments) (name : Text) : Option Text := (a.values name).head?

/-- The arguments with one more option, where it may be given again. -/
def give? (a : Arguments) (spec : OptionSpec) (value : Text) : Option Arguments :=
  if spec.kind ≠ .many ∧ a.has spec.name then none
  else some { a with given := (spec.name, value) :: a.given, due? := none }

def looksLikeOption (word : Text) : Bool := word.head? == some '-' && word != ['-']

/-- The arguments after a long option, `word` being what follows its hyphens. -/
def long? (specs : List OptionSpec) (a : Arguments) (word : Text) : Option Arguments :=
  let name := word.takeWhile (· != '=')
  let value? := if name.length < word.length then some (word.drop (name.length + 1)) else none
  match specs.find? fun s => s.name == name with
  | none => none
  | some spec =>
    match spec.kind, value? with
    | .flag, none => a.give? spec []
    | .flag, some _ => none
    | _, some value => a.give? spec value
    | _, none => some { a with due? := some spec }

/-- The arguments after a word of letters. -/
def letters? (specs : List OptionSpec) (a : Arguments) : Text → Option Arguments
  | [] => some a
  | c :: rest =>
    match specs.find? fun s => s.letter? == some c with
    | none => none
    | some spec =>
      match spec.kind, rest with
      | .flag, _ => (a.give? spec []).bind fun a => letters? specs a rest
      | _, [] => some { a with due? := some spec }
      | _, '=' :: value => a.give? spec value
      | _, value => a.give? spec value

/-- The arguments after one more word. -/
def word? (specs : List OptionSpec) (a : Arguments) (word : Text) : Option Arguments :=
  match a.due? with
  | some spec => if looksLikeOption word then none else a.give? spec word
  | none =>
    if a.ended || !looksLikeOption word then some { a with operands := word :: a.operands }
    else if word = ['-', '-'] then some { a with ended := true }
    else if word.take 2 = ['-', '-'] then a.long? specs (word.drop 2)
    else a.letters? specs (word.drop 1)

/-- The arguments in the words of a command line. -/
def read? (specs : List OptionSpec) (words : List Text) : Option Arguments :=
  (words.foldlM (word? specs) start).bind fun a => if a.due?.isNone then some a else none

end Arguments

end ClassGraph
