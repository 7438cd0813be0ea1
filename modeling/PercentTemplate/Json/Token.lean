import PercentTemplate.Json.Basic
import PercentTemplate.Number.FloatText
import PercentTemplate.Number.Integer
import PercentTemplate.Text.Hex

/-!
# JSON tokens

The words of a JSON text: punctuation, strings and scalars. A text that cannot be read further ends
in a token that says why, so that a reader meets faults in the order of the text.

## Main definitions

- `Json.Fault` — why a text is no JSON value
- `Json.Token` — a word of a JSON text
- `Json.Token.lex` — the words of a text
-/

namespace PercentTemplate.Json

open Text (Point Points)

/-- Why a text is no JSON value. -/
inductive Fault
  | malformed
  | integer (f : Integer.Fault)
  deriving DecidableEq, Repr

/-- A word of a JSON text. -/
inductive Token where
  | mark (c : Char)
  | text (s : Points)
  | scalar (v : Json Points)
  | fault (f : Fault)

namespace Token

def isSpace (c : Char) : Bool :=
  c = ' ' || c = '\t' || c = '\r' || c = '\n'

/-- Whether `c` is a bracket, a comma or a colon. -/
def isMark (c : Char) : Bool :=
  c = '[' || c = ']' || c = '\x7b' || c = '\x7d' || c = ',' || c = ':'

/-- The code that a one-letter escape stands for. -/
def escapeCode? (c : Char) : Option Nat :=
  match c with
  | '"' => some 0x22
  | '\\' => some 0x5C
  | '/' => some 0x2F
  | 'b' => some 0x08
  | 'f' => some 0x0C
  | 'n' => some 0x0A
  | 'r' => some 0x0D
  | 't' => some 0x09
  | _ => none

/-- The codes up to the closing quote behind the reversed result so far, and the rest. Control
characters have to be escaped. -/
def scanText (done : List Nat) : List Char → Option (List Nat × List Char)
  | [] => none
  | '"' :: rest => some (done.reverse, rest)
  | '\\' :: 'u' :: a :: b :: c :: d :: rest =>
    match Text.hexNumber? [a, b, c, d] with
    | some n => scanText (n :: done) rest
    | none => none
  | '\\' :: c :: rest =>
    match escapeCode? c with
    | some n => scanText (n :: done) rest
    | none => none
  | c :: rest => if c.toNat < 0x20 || c = '\\' then none else scanText (c.toNat :: done) rest

/-- The text that a sequence of codes stands for, in which a high surrogate and a low one after it
make up one character. Any other surrogate stands alone. -/
def joinSurrogates : List Nat → Points
  | [] => []
  | [n] => [.ofCode n]
  | high :: low :: rest =>
    if (0xD800 ≤ high ∧ high < 0xDC00) ∧ (0xDC00 ≤ low ∧ low < 0xE000) then
      .ofCode (0x10000 + (high - 0xD800) * 0x400 + (low - 0xDC00)) :: joinSurrogates rest
    else .ofCode high :: joinSurrogates (low :: rest)

/-- Whether a number may begin with these digits: one zero, or a run that begins otherwise. -/
def wholeDigits (digits : List Char) : List Char × List Char :=
  match digits with
  | '0' :: rest => (['0'], rest)
  | ds => (ds, [])

/-- The digits of a fraction and the rest: a point that no digit follows is not part of a number. -/
def takeFraction : List Char → Option (List Char × List Char)
  | '.' :: rest =>
    let digits := rest.takeWhile Char.isDigit
    if digits.isEmpty then none else some (digits, rest.dropWhile Char.isDigit)
  | _ => none

/-- The exponent and the rest: without digits it is not part of a number. -/
def takeExponent : List Char → Option (Int × List Char)
  | e :: rest =>
    if e = 'e' ∨ e = 'E' then
      let (negative, rest) := Integer.takeSign rest
      let digits := rest.takeWhile Char.isDigit
      if digits.isEmpty then none
      else
        let n : Int := Integer.ofDigits digits
        some (if negative then -n else n, rest.dropWhile Char.isDigit)
    else none
  | [] => none

/-- The number at the front of `cs`, which begins with a digit. -/
def scanNumber (negative : Bool) (cs : List Char) : Token × List Char :=
  let run := cs.takeWhile Char.isDigit
  let (whole, unread) := wholeDigits run
  let rest := unread ++ cs.dropWhile Char.isDigit
  let fraction := takeFraction rest
  let afterFraction := (fraction.map Prod.snd).getD rest
  let exponent := takeExponent afterFraction
  let afterExponent := (exponent.map Prod.snd).getD afterFraction
  if fraction.isNone && exponent.isNone then
    match Integer.ofDigitRun whole with
    | .ok n => (scalar (.int (if negative then -(n : Int) else n)), rest)
    | .error f => (fault (.integer f), [])
  else
    let places := (fraction.map Prod.fst).getD []
    let power : Int := (exponent.map Prod.fst).getD 0
    let x := FloatText.ofDecimal (Integer.ofDigits (whole ++ places)) (power - places.length)
    (scalar (.float (if negative then -x else x)), afterExponent)

/-- The literal names and the values they stand for. -/
def names : List (String × Json Points) :=
  [("null", .null), ("true", .bool true), ("false", .bool false), ("NaN", .float (0.0 / 0.0)),
    ("Infinity", .float (1.0 / 0.0)), ("-Infinity", .float (-1.0 / 0.0))]

/-- The word at the front of `cs`, which is neither empty nor begins with a space, and the rest. -/
def next (cs : List Char) : Token × List Char :=
  match cs with
  | [] => (fault .malformed, [])
  | c :: rest =>
    if isMark c then (mark c, rest)
    else if c = '"' then
      match scanText [] rest with
      | some (codes, rest) => (text (joinSurrogates codes), rest)
      | none => (fault .malformed, [])
    else if c.isDigit then scanNumber false cs
    else match names.find? fun n => n.1.toList.isPrefixOf cs with
    | some (name, v) => (scalar v, cs.drop name.length)
    | none =>
      match rest with
      | d :: _ => if c = '-' ∧ d.isDigit then scanNumber true rest else (fault .malformed, [])
      | [] => (fault .malformed, [])

/-- The words of `cs`; `fuel` bounds their number. -/
def lexAux : Nat → List Char → List Token
  | 0, _ => []
  | fuel + 1, cs =>
    match cs.dropWhile isSpace with
    | [] => []
    | cs =>
      let (token, rest) := next cs
      token :: lexAux fuel rest

/-- The words of a text. Every word is at least one character long. -/
def lex (cs : List Char) : List Token :=
  lexAux cs.length cs

end Token

end PercentTemplate.Json
