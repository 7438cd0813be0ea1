import PercentTemplate.Json.Basic
import PercentTemplate.Number.FloatText
import PercentTemplate.Text.Hex

/-!
# Writing JSON

The compact form of a JSON value: no spaces, the members of an object in ascending order of their
names, characters outside ASCII as themselves and control characters escaped.

## Main definitions

- `Json.textChar` — one character inside a JSON string
- `Json.render` — the compact text of a value
-/

namespace PercentTemplate.Json

def textChar (c : Char) : List Char :=
  if c = '"' then ['\\', '"']
  else if c = '\\' then ['\\', '\\']
  else if c = '\n' then ['\\', 'n']
  else if c = '\r' then ['\\', 'r']
  else if c = '\t' then ['\\', 't']
  else if c = '\x08' then ['\\', 'b']
  else if c = '\x0c' then ['\\', 'f']
  else if c.toNat < 0x20 then '\\' :: 'u' :: Text.hexText 4 c.toNat
  else [c]

def textChars (s : String) : List Char :=
  '"' :: s.toList.flatMap textChar ++ ['"']

def joinComma : List (List Char) → List Char
  | [] => []
  | [piece] => piece
  | piece :: rest => piece ++ ',' :: joinComma rest

/-- Members in ascending order of their names, by code point. -/
def sortMembers {α : Type} (members : List (String × α)) : List (String × α) :=
  members.mergeSort fun a b => !decide (b.1 < a.1)

mutual

def chars : Json → List Char
  | null => "null".toList
  | bool true => "true".toList
  | bool false => "false".toList
  | int n => (toString n).toList
  | float x => (FloatText.render FloatText.data x).toList
  | str s => textChars s
  | arr items => '[' :: joinComma (itemChars items) ++ [']']
  | obj members =>
    '\x7b' :: joinComma ((sortMembers (memberChars members)).map Prod.snd) ++ ['\x7d']

def itemChars : List Json → List (List Char)
  | [] => []
  | item :: rest => chars item :: itemChars rest

/-- The names of the members of an object, each with the text of the whole member. -/
def memberChars : List (String × Json) → List (String × List Char)
  | [] => []
  | (name, value) :: rest => (name, textChars name ++ ':' :: chars value) :: memberChars rest

end

def render (v : Json) : String :=
  String.ofList (chars v)

end PercentTemplate.Json
