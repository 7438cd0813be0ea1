import PercentTemplate.Json.Writer
import PercentTemplate.Number.Integer

/-!
# Writing JSON piece by piece

A file gets the text of a JSON value piece by piece. An integer with too many digits has no text:
writing ends there, and the pieces before it are out.

## Main definitions

- `Json.Emission` — what comes out of writing, and why no more does
- `Json.emit` — the emission of a value
-/

namespace PercentTemplate.Json

/-- The characters that come out of writing, and what ends it early. -/
structure Emission where
  chars : List Char
  fault : Option Integer.Fault
  deriving DecidableEq, Repr

namespace Emission

def ofChars (cs : List Char) : Emission := ⟨cs, none⟩

/-- An integer behind a lead. The lead does not come out by itself. -/
def ofInteger (lead : List Char) (n : Int) : Emission :=
  match Integer.text n with
  | .ok s => ofChars (lead ++ s.toList)
  | .error f => ⟨[], some f⟩

/-- What comes out if writing goes on after the first emission, unless that ends early. -/
def andThen (first second : Emission) : Emission :=
  match first.fault with
  | none => ⟨first.chars ++ second.chars, second.fault⟩
  | some f => ⟨first.chars, some f⟩

/-- Members of an object, separated by commas, and its end. -/
def ofMembers : List Emission → Emission
  | [] => ofChars ['\x7d']
  | [e] => e.andThen (ofChars ['\x7d'])
  | e :: rest => e.andThen ((ofChars [',']).andThen (ofMembers rest))

end Emission

mutual

def emit : Json → Emission
  | int n => .ofInteger [] n
  | arr items => if items.isEmpty then .ofChars ['[', ']'] else emitItems '[' items
  | obj members =>
    (Emission.ofChars ['\x7b']).andThen
      (.ofMembers ((sortMembers (emitMembers members)).map Prod.snd))
  | v => .ofChars (chars v)

/-- Items of an array, each behind a bracket or a comma, and its end. -/
def emitItems (lead : Char) : List Json → Emission
  | [] => .ofChars [']']
  | int n :: rest => (Emission.ofInteger [lead] n).andThen (emitItems ',' rest)
  | v :: rest => (Emission.ofChars [lead]).andThen ((emit v).andThen (emitItems ',' rest))

/-- The names of the members of an object, each with the emission of the whole member. -/
def emitMembers : List (String × Json) → List (String × Emission)
  | [] => []
  | (name, v) :: rest =>
    (name, (Emission.ofChars (textChars name ++ [':'])).andThen (emit v)) :: emitMembers rest

end

end PercentTemplate.Json
