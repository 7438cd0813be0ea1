import PercentTemplate.Template.Event
import PercentTemplate.Template.Placeholder

/-!
# Tokens

The written form of templates. A token is a character, an escape, a key placeholder or a directive.
A directive says how many spaces stand at each place where spaces are allowed, so that a token has
exactly one written form.

## Main definitions

- `Directive`, `Token` — the smallest parts of a template
- `Token.print` — the written form of a token
- `Token.IsValid` — whether the written form means the token
- `Token.events` — the events that a sequence of tokens stands for
-/

namespace PercentTemplate

namespace Placeholder.Side

/-- The sign that introduces a directive to a side. -/
def sign : Side → Char
  | left => '<'
  | right => '>'

/-- The side that a format kind aligns to. -/
def ofKind : Format.Kind → Side
  | .none | .left | .leftTrunc => left
  | .right | .rightTrunc | .rightLtrunc => right

/-- The keyword that asks for a format kind, if one is needed. -/
def wordOf? : Format.Kind → Option String
  | .none | .left | .right => Option.none
  | .leftTrunc | .rightTrunc => some "trunc"
  | .rightLtrunc => some "ltrunc"

theorem keyword?_wordOf {kind : Format.Kind} {word : String} (h : wordOf? kind = some word) :
    (ofKind kind).keyword? word = some kind := by
  cases kind <;> cases h <;> rfl

theorem plain_ofKind {kind : Format.Kind} (h : wordOf? kind = none) (hkind : kind ≠ .none) :
    (ofKind kind).plain = kind := by
  cases kind with
  | none => exact absurd rfl hkind
  | left | right => rfl
  | leftTrunc | rightTrunc | rightLtrunc => cases h

theorem ofKind_plain (side : Side) : ofKind side.plain = side := by
  cases side <;> rfl

end Placeholder.Side

/-- A directive with its spaces. -/
structure Directive where
  /-- The kind of the format that it sets. -/
  kind : Format.Kind
  /-- The width of the format that it sets. -/
  width : Nat
  /-- The number of spaces after the opening parenthesis. -/
  afterOpening : Nat
  /-- The number of spaces after the width. -/
  afterWidth : Nat
  /-- The number of spaces after the comma, if there is one. -/
  afterComma : Nat
  /-- The number of spaces after the keyword, if there is one. -/
  afterKeyword : Nat
  deriving DecidableEq, Repr

namespace Directive

open Placeholder

/-- The format that a directive sets. -/
def format (d : Directive) : Format := ⟨d.kind, d.width⟩

/-- A run of spaces. -/
def spaces (n : Nat) : List Char := List.replicate n ' '

/-- What follows the width and its spaces. -/
def ending (d : Directive) : List Char :=
  match Side.wordOf? d.kind with
  | none => [')']
  | some word =>
    ',' :: spaces d.afterComma ++ word.toList ++ spaces d.afterKeyword ++ [')']

/-- The written form of a directive. -/
def print (d : Directive) : List Char :=
  '%' :: (Side.ofKind d.kind).sign :: '(' :: spaces d.afterOpening ++ Nat.toDigits 10 d.width
    ++ spaces d.afterWidth ++ d.ending

end Directive

/-- One of the smallest parts of a template. -/
inductive Token
  /-- A character that stands for itself. -/
  | literal (c : Char)
  /-- The escape for a line feed. -/
  | lineFeed
  /-- The escape for a percent sign. -/
  | percent
  /-- A placeholder for the value of a key. -/
  | key (name : String)
  /-- A directive. -/
  | directive (d : Directive)
  deriving DecidableEq, Repr

namespace Token

open Placeholder

/-- The written form of a token. -/
def print : Token → List Char
  | literal c => [c]
  | lineFeed => ['%', 'n']
  | percent => ['%', '%']
  | key name => '%' :: '(' :: name.toList ++ [')']
  | directive d => d.print

/-- The written form of a sequence of tokens. -/
def printAll (ts : List Token) : List Char := ts.flatMap print

/-- Whether the written form of a token means the token. A directive that needs no keyword has no
spaces around one either. -/
def IsValid : Token → Prop
  | literal c => c ≠ '%'
  | lineFeed | percent => True
  | key name => ∀ c ∈ name.toList, isKeyChar c = true
  | directive d => d.kind ≠ .none ∧ 1 ≤ d.width ∧ d.width ≤ maxWidth
      ∧ (Side.wordOf? d.kind = none → d.afterComma = 0 ∧ d.afterKeyword = 0)

instance : (t : Token) → Decidable t.IsValid
  | literal c => inferInstanceAs (Decidable (c ≠ '%'))
  | lineFeed | percent => inferInstanceAs (Decidable True)
  | key name =>
    decidable_of_decidable_of_iff (p := name.toList.all isKeyChar = true) List.all_eq_true
  | directive d =>
    inferInstanceAs (Decidable (d.kind ≠ .none ∧ 1 ≤ d.width ∧ d.width ≤ maxWidth
      ∧ (Side.wordOf? d.kind = none → d.afterComma = 0 ∧ d.afterKeyword = 0)))

/-- The events that tokens stand for which begin at `offset` in a template, under a pending format.
A directive has none; its format is pending until the next key placeholder. -/
def events (offset : Nat) (pending : Format) : List Token → List Event
  | [] => []
  | t :: rest =>
    let after := offset + t.print.length
    match t with
    | literal c => .literal (String.singleton c) :: events after pending rest
    | lineFeed => .escape "\n" :: events after pending rest
    | percent => .escape "%" :: events after pending rest
    | key name =>
      .key name pending ⟨offset, String.ofList (key name).print⟩ :: events after .unset rest
    | directive d => events after d.format rest

end Token

end PercentTemplate
