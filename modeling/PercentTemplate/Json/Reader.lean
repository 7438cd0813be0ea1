import PercentTemplate.Json.Token

/-!
# Reading JSON

A JSON text is read word by word with a stack of the arrays and objects that are still open.

## Main definitions

- `Json.Frame` — an array or object that is still open
- `Json.Stage` — what may come next
- `Json.step` — the effect of one word
- `Json.read` — the value of a text
- `Json.nesting` — how deep the values of a text lie inside one another
-/

namespace PercentTemplate.Json

open Text (Points)

/-- An array or object that is still open, its contents in reverse order. -/
inductive Frame where
  | array (items : List (Json Points))
  /-- An object with the members so far and the name of the member being read. -/
  | object (members : List (Points × Json Points)) (name : Points)

/-- What may come next. -/
inductive Stage where
  | value
  | firstItem
  /-- The name of a member, or, directly after the opening brace, the end of the object. -/
  | name (first : Bool)
  | colon
  | separator
  | finished (v : Json Points)

/-- A reading in progress: what is open, the innermost first, and what may come next. -/
abbrev Reading := List Frame × Stage

/-- Hand the complete value `v` to the innermost open array or object. -/
def deliver (v : Json Points) : List Frame → Reading
  | [] => ([], .finished v)
  | .array items :: open_ => (.array (v :: items) :: open_, .separator)
  | .object members name :: open_ => (.object ((name, v) :: members) name :: open_, .separator)

def beginValue (stack : List Frame) : Token → Except Fault Reading
  | .mark '[' => .ok (.array [] :: stack, .firstItem)
  | .mark '\x7b' => .ok (.object [] [] :: stack, .name true)
  | .text s => .ok (deliver (.str s) stack)
  | .scalar v => .ok (deliver v stack)
  | .fault f => .error f
  | .mark _ => .error .malformed

def closeArray : List Frame → Except Fault Reading
  | .array items :: stack => .ok (deliver (.arr items.reverse) stack)
  | _ => .error .malformed

/-- Close the innermost object; of several members with one name the last counts. -/
def closeObject : List Frame → Except Fault Reading
  | .object members _ :: stack => .ok (deliver (.obj (Keyed.ofList members.reverse)) stack)
  | _ => .error .malformed

/-- Read a comma in the innermost array or object. -/
def continueInner : List Frame → Except Fault Reading
  | .array items :: stack => .ok (.array items :: stack, .value)
  | .object members name :: stack => .ok (.object members name :: stack, .name false)
  | [] => .error .malformed

/-- Read the name of a member of the innermost object. -/
def nameMember (s : Points) : List Frame → Except Fault Reading
  | .object members _ :: stack => .ok (.object members s :: stack, .colon)
  | _ => .error .malformed

/-- The effect of one word. A word that cannot be read counts as such only where a value may
begin; elsewhere any wrong word is a fault of the grammar. -/
def step (reading : Reading) (token : Token) : Except Fault Reading :=
  let (stack, stage) := reading
  match stage, token with
  | .value, token => beginValue stack token
  | .firstItem, .mark ']' => closeArray stack
  | .firstItem, token => beginValue stack token
  | .name true, .mark '\x7d' => closeObject stack
  | .name _, .text s => nameMember s stack
  | .colon, .mark ':' => .ok (stack, .value)
  | .separator, .mark ',' => continueInner stack
  | .separator, .mark ']' => closeArray stack
  | .separator, .mark '\x7d' => closeObject stack
  | _, _ => .error .malformed

def ofTokens (tokens : List Token) : Except Fault (Json Points) :=
  match tokens.foldlM step ([], .value) with
  | .ok (_, .finished v) => .ok v
  | .ok _ => .error .malformed
  | .error f => .error f

/-- The value of a JSON text, with blanks around it. A byte order mark is no blank. -/
def read (s : String) : Except Fault (Json Points) :=
  ofTokens (Token.lex s.toList)

/-- The most arrays and objects that are open at once in the course of a reading, up to the first
fault. -/
def nestingFrom (reading : Reading) : List Token → Nat
  | [] => reading.1.length
  | token :: rest =>
    match step reading token with
    | .ok next => max reading.1.length (nestingFrom next rest)
    | .error _ => reading.1.length

/-- The most arrays and objects of a text that are open at once, up to the first fault. -/
def nesting (cs : List Char) : Nat :=
  nestingFrom ([], .value) (Token.lex cs)

end PercentTemplate.Json
