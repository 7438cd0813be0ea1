import PercentTemplate.Json.Basic
import PercentTemplate.Number.FloatText
import PercentTemplate.Number.Integer
import PercentTemplate.Text.Blank

/-!
# Schemas

Reading typed fields from a JSON object. Every field is checked, and all problems are reported:
those of the declared fields in their order, then the unknown members.

Integers are read generously: truth values count as 0 and 1, a floating-point number without a
fraction and a text of decimal digits stand for their integer.

## Main definitions

- `Schema.Problem` — what is wrong, and at which place
- `Schema.integer`, `Schema.text`, `Schema.listOf` — the readers of the field types
- `Schema.field` — the reader of one member
- `Schema.unknown` — the problems of members that no field declares
-/

namespace PercentTemplate.Schema

/-- What can be wrong with a value. -/
inductive Cause
  | missing
  /-- The value is of no type that an integer can be read from. -/
  | intType
  | intParsing
  | intFromFloat
  | greaterThanEqual
  | listType
  | stringType
  | extraForbidden
  | modelType
  deriving DecidableEq, Repr

def Cause.name : Cause → String
  | missing => "missing"
  | intType => "int_type"
  | intParsing => "int_parsing"
  | intFromFloat => "int_from_float"
  | greaterThanEqual => "greater_than_equal"
  | listType => "list_type"
  | stringType => "string_type"
  | extraForbidden => "extra_forbidden"
  | modelType => "model_type"

/-- One step of the way to a value. -/
inductive Place
  | member (name : String)
  | item (index : Nat)
  deriving DecidableEq, Repr

/-- What is wrong, and the way to the value it is wrong with. -/
structure Problem where
  cause : Cause
  place : List Place
  deriving DecidableEq, Repr

/-- The result of a check: a value or all its problems. -/
abbrev Checked (α : Type) := Except (List Problem) α

def refuse {α : Type} (cause : Cause) : Checked α := .error [⟨cause, []⟩]

def problems {α : Type} : Checked α → List Problem
  | .ok _ => []
  | .error ps => ps

/-- The same check seen from one step further out. -/
def within {α : Type} (place : Place) : Checked α → Checked α
  | .ok a => .ok a
  | .error ps => .error (ps.map fun p => { p with place := place :: p.place })

/-- Digits with single underscores between them, which are left out. -/
def plainDigits? (afterDigit : Bool) : List Char → Option (List Char)
  | [] => if afterDigit then some [] else none
  | '_' :: rest => if afterDigit then plainDigits? false rest else none
  | c :: rest => if c.isDigit then (plainDigits? true rest).map (c :: ·) else none

/-- The integer that a text stands for: blanks around it, a sign, underscores between digits and a
fraction of zeros are allowed. -/
def integerOfText? (s : String) : Option Int :=
  let (negative, cs) := Integer.takeSign (Text.trim Text.isNumberBlank s.toList)
  let whole := cs.takeWhile (· != '.')
  let zeros := (cs.dropWhile (· != '.')).drop 1
  if zeros.all (· == '0') then
    (plainDigits? false whole).map fun digits =>
      let n : Int := Integer.ofDigits digits
      if negative then -n else n
  else none

def integer : Json → Checked Int
  | .int n => .ok n
  | .bool b => .ok (if b then 1 else 0)
  | .float x => (FloatText.integer? x).elim (refuse .intFromFloat) .ok
  | .str s => (integerOfText? s).elim (refuse .intParsing) .ok
  | .null | .arr _ | .obj _ => refuse .intType

def natural (v : Json) : Checked Nat :=
  match integer v with
  | .ok n => if n < 0 then refuse .greaterThanEqual else .ok n.toNat
  | .error ps => .error ps

def text : Json → Checked String
  | .str s => .ok s
  | _ => refuse .stringType

/-- The values of a list of checks, or all their problems. -/
def gather {α : Type} (checks : List (Checked α)) : Checked (List α) :=
  let ps := checks.flatMap problems
  if ps.isEmpty then .ok (checks.filterMap Except.toOption) else .error ps

def listOf {α : Type} (item : Json → Checked α) : Json → Checked (List α)
  | .arr items => gather (items.mapIdx fun i v => within (.item i) (item v))
  | _ => refuse .listType

/-- The member `name`, which may be absent only if there is a default. -/
def field {α : Type} (members : List (String × Json)) (name : String) (absent : Option α)
    (read : Json → Checked α) : Checked α :=
  within (.member name) <|
    match Keyed.get? name members with
    | some v => read v
    | none => absent.elim (refuse .missing) .ok

/-- The problems of the members that are not among `declared`. -/
def unknown (members : List (String × Json)) (declared : List String) : List Problem :=
  members.filterMap fun (name, _) =>
    if declared.contains name then none else some ⟨.extraForbidden, [.member name]⟩

end PercentTemplate.Schema
