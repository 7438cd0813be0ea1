import PercentTemplate.Yaml.Timestamp

/-!
# Tags

The types of nodes. A plain scalar without a tag has the type that its text looks like.

## Main definitions

- `Yaml.Tag` — the type of a node
- `Yaml.Tag.ofName` — the type with a given full name
- `Yaml.Tag.ofPlain` — the type of a plain scalar
-/

namespace PercentTemplate.Yaml

/-- The type of a node. -/
inductive Tag
  | null
  | bool
  | int
  | float
  | binary
  | timestamp
  | str
  | seq
  | map
  | set
  | pairs
  /-- The key whose value is merged into the mapping around it. -/
  | merge
  | value
  | other (name : String)
  deriving DecidableEq, Repr

namespace Tag

/-- What the names of the known types begin with. -/
def stem : String := "tag:yaml.org,2002:"

/-- The known types with the ends of their names. -/
def known : List (String × Tag) :=
  [("null", null), ("bool", bool), ("int", int), ("float", float), ("binary", binary),
    ("timestamp", timestamp), ("str", str), ("seq", seq), ("map", map), ("set", set),
    ("omap", pairs), ("pairs", pairs), ("merge", merge), ("value", value)]

def ofName (name : String) : Tag :=
  ((known.find? fun k => stem ++ k.1 == name).map Prod.snd).getD (other name)

def isDigitOrGap (c : Char) : Bool := c.isDigit || c = '_'

def dropSign (cs : List Char) : List Char :=
  match cs with
  | c :: rest => if c = '+' ∨ c = '-' then rest else cs
  | [] => []

/-- Whether a text is a digit and then digits and underscores. -/
def isDigits : List Char → Bool
  | c :: rest => c.isDigit && rest.all isDigitOrGap
  | [] => false

/-- Whether a text is a part of a number in base sixty: a digit, or two digits below sixty. -/
def isSixtieth : List Char → Bool
  | [c] => c.isDigit
  | [c, d] => '0' ≤ c && c ≤ '5' && d.isDigit
  | _ => false

/-- Pieces of a text between colons, behind the reversed current piece. -/
def splitColons (piece : List Char) : List Char → List (List Char)
  | [] => [piece.reverse]
  | c :: rest =>
    if c = ':' then piece.reverse :: splitColons [] rest else splitColons (c :: piece) rest

/-- Whether a text is a number in base sixty of at least two parts. -/
def isSexagesimal (cs : List Char) : Bool :=
  match splitColons [] cs with
  | first :: second :: rest => isDigits first && (second :: rest).all isSixtieth
  | _ => false

def isInt (cs : List Char) : Bool :=
  match dropSign cs with
  | ['0'] => true
  | '0' :: 'b' :: c :: rest => (c :: rest).all fun c => c = '0' || c = '1' || c = '_'
  | '0' :: 'x' :: c :: rest =>
    (c :: rest).all fun c =>
      c.isDigit || ('a' ≤ c && c ≤ 'f') || ('A' ≤ c && c ≤ 'F') || c = '_'
  | '0' :: rest => rest.all fun c => ('0' ≤ c && c ≤ '7') || c = '_'
  | cs => isDigits cs || isSexagesimal cs

/-- Whether a text is an exponent: a letter, a sign and digits; it may also be empty. -/
def isExponent : List Char → Bool
  | [] => true
  | e :: sign :: d :: rest =>
    (e = 'e' || e = 'E') && (sign = '+' || sign = '-') && (d :: rest).all Char.isDigit
  | _ => false

/-- Whether a text looks like a floating-point number: there has to be a point. -/
def isFloat (cs : List Char) : Bool :=
  let unsigned := dropSign cs
  let whole := unsigned.takeWhile (· != '.')
  let afterPoint := (unsigned.dropWhile (· != '.')).drop 1
  let exponent := afterPoint.dropWhile isDigitOrGap
  let hasPoint := unsigned.contains '.'
  (hasPoint && isDigits whole && isExponent exponent)
    || (cs.head? == some '.' && isDigits (afterPoint.takeWhile isDigitOrGap)
      && isExponent exponent)
    || (hasPoint && isSexagesimal whole && exponent.isEmpty)
    || [".inf", ".Inf", ".INF"].any (·.toList == unsigned)
    || [".nan", ".NaN", ".NAN"].any (·.toList == cs)

def boolWords : List String :=
  ["yes", "Yes", "YES", "no", "No", "NO", "true", "True", "TRUE", "false", "False", "FALSE",
    "on", "On", "ON", "off", "Off", "OFF"]

/-- The spellings of no value, the empty text apart. -/
def nullWords : List String := ["~", "null", "Null", "NULL"]

def dropFinalBreak (cs : List Char) : List Char :=
  if cs.getLast? == some '\n' then cs.dropLast else cs

/-- The type that the text of a plain scalar looks like. -/
def ofPlain (text : String) : Tag :=
  let cs := dropFinalBreak text.toList
  let s := String.ofList cs
  if boolWords.contains s then bool
  else if isFloat cs then float
  else if isInt cs then int
  else if s == "<<" then merge
  else if text.isEmpty || nullWords.contains s then null
  else if (Timestamp.parse? cs).any Timestamp.isRecognised then timestamp
  else if s == "=" then value
  else if ["!", "&", "*"].contains s then other (stem ++ "yaml")
  else str

end Tag

end PercentTemplate.Yaml
