/-
ClassGraph.Pattern.Named — the sets of characters that patterns call by name.

Inside brackets a short list of names stands for ASCII classes. Elsewhere a
name is that of a property, of a general category or group of categories, or
of a script; names are compared without regard to case, blanks, hyphens and
low lines, and without a leading `is`. A few names also belong to properties
that are no sets; for those the category is meant.
-/
import ClassGraph.Pattern.CharSet

namespace ClassGraph.CharSet

/-! ## §1 ASCII classes -/

def asciiWord : CharSet := ranges [('0', '9'), ('A', 'Z'), ('_', '_'), ('a', 'z')]

def asciiDigit : CharSet := range '0' '9'

def asciiBlank : CharSet := ranges [('\t', '\r'), (' ', ' ')]

/-- The ASCII classes by name. -/
def asciiClasses : List (String × CharSet) :=
  [("alnum", ranges [('0', '9'), ('A', 'Z'), ('a', 'z')]),
    ("alpha", ranges [('A', 'Z'), ('a', 'z')]),
    ("ascii", range '\x00' '\x7f'),
    ("blank", ranges [('\t', '\t'), (' ', ' ')]),
    ("cntrl", ranges [('\x00', '\x1f'), ('\x7f', '\x7f')]),
    ("digit", asciiDigit),
    ("graph", range '!' '~'),
    ("lower", range 'a' 'z'),
    ("print", range ' ' '~'),
    ("punct", ranges [('!', '/'), (':', '@'), ('[', '\x60'), ('\x7b', '~')]),
    ("space", asciiBlank),
    ("upper", range 'A' 'Z'),
    ("word", asciiWord),
    ("xdigit", ranges [('0', '9'), ('A', 'F'), ('a', 'f')])]

/-- The ASCII class of a name. -/
def ascii? (name : Text) : Option CharSet :=
  (asciiClasses.find? fun e => e.1.toList == name).map (·.2)

/-! ## §2 Properties, categories and scripts -/

/-- A name as it is compared: in small letters, without separators, other alphabets and a leading
`is`. The name that would leave a lone `c` keeps its beginning. -/
def foldName (name : Text) : Text :=
  let small (s : Text) : Text :=
    (s.filter fun c => c != ' ' && c != '_' && c != '-' && c.toNat < 0x80).map Char.toLower
  if (name.take 2).map Char.toLower == ['i', 's'] then
    let rest := small (name.drop 2)
    if rest == ['c'] then ['i', 's', 'c'] else rest
  else small name

/-- The set of the general category, or group of them, with a folded name. -/
def category? (name : Text) : Option CharSet :=
  if name == "any".toList then some all
  else if name == "ascii".toList then some (range '\x00' '\x7f')
  else if name == "assigned".toList then some (compl (categories [['C', 'n']]))
  else (Unicode.categoriesOf? name).map categories

/-- The set of the script with a folded name. -/
def script? (name : Text) : Option CharSet := (Unicode.scriptOf? name).map script

/-- The set of a name. -/
def named? (name : Text) : Option CharSet :=
  let name := foldName name
  ((Unicode.propertyOf? name).map property <|> category? name) <|> script? name

/-- The set of the characters for which a feature of several values has the named value. -/
def valued? (feature value : Text) : Option CharSet :=
  let value := foldName value
  let feature := foldName feature
  if feature == "gc".toList || feature == "generalcategory".toList then category? value
  else if feature == "sc".toList || feature == "script".toList then script? value
  else if feature == "scx".toList || feature == "scriptextensions".toList then
    (Unicode.scriptOf? value).map used
  else Option.none

/-- The name and the value around the first occurrence of a separator. -/
def splitAt? (separator : Text) : Text → Option (Text × Text)
  | [] => Option.none
  | c :: s =>
    if separator.isPrefixOf (c :: s) then some ([], (c :: s).drop separator.length)
    else (splitAt? separator s).map fun (name, value) => (c :: name, value)

/-- The set of a name between braces, which may be a name and a value. -/
def braced? (name : Text) : Option CharSet :=
  match (splitAt? ['!', '='] name <|> splitAt? [':'] name) <|> splitAt? ['='] name with
  | some (feature, value) => valued? feature value
  | Option.none => named? name

end ClassGraph.CharSet
