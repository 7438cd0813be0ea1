import PercentTemplate.Document.Basic
import PercentTemplate.Number.Integer
import PercentTemplate.Text.Quoted

/-!
# Documents as text

The text that a value becomes where a text is wanted, and the literal form in which it appears
inside another value. Only texts and dates differ in the two. In a literal form a surrogate is
written by its code, so that there is none left in it.

## Main definitions

- `Document.literal` — the form of a value inside another one
- `Document.text` — the form of a value on its own

The one thing that cannot be written is an integer whose digits are refused.
-/

namespace PercentTemplate.Document

open Text (Points)

def boolText (b : Bool) : String := if b then "True" else "False"

mutual

def literal : Document → Except Integer.Fault String
  | null => .ok "None"
  | bool b => .ok (boolText b)
  | int n => Integer.text n
  | float x => .ok (FloatText.render FloatText.plain x)
  | str s => .ok (Text.quotedPoints s)
  | bytes bs => .ok (Text.quotedBytes bs)
  | date d => .ok d.literal
  | moment m => .ok m.literal
  | list items => (literals items).map fun ts => "[" ++ String.intercalate ", " ts ++ "]"
  | map entries =>
    (entryLiterals entries).map fun ts => "\x7b" ++ String.intercalate ", " ts ++ "\x7d"
  | set members =>
    if members.isEmpty then .ok "set()"
    else (literals members).map fun ts => "\x7b" ++ String.intercalate ", " ts ++ "\x7d"
  | pair a b =>
    match literal a with
    | .error f => .error f
    | .ok s => (literal b).map fun t => "(" ++ s ++ ", " ++ t ++ ")"
  | again isMap => .ok (if isMap then "\x7b...\x7d" else "[...]")

def literals : List Document → Except Integer.Fault (List String)
  | [] => .ok []
  | d :: rest =>
    match literal d with
    | .error f => .error f
    | .ok s => (literals rest).map (s :: ·)

def entryLiterals : List (Document × Document) → Except Integer.Fault (List String)
  | [] => .ok []
  | (k, v) :: rest =>
    match literal k with
    | .error f => .error f
    | .ok s =>
      match literal v with
      | .error f => .error f
      | .ok t => (entryLiterals rest).map ((s ++ ": " ++ t) :: ·)

end

def text : Document → Except Integer.Fault Points
  | str s => .ok s
  | date d => .ok (.ofString d.text)
  | moment m => .ok (.ofString m.text)
  | d => d.literal.map Points.ofString

/-- The texts of several values, separated by a comma and a space. -/
def joinTexts (items : List Document) : Except Integer.Fault Points :=
  (items.mapM text).map (Points.ofString ", ").intercalate

end PercentTemplate.Document
