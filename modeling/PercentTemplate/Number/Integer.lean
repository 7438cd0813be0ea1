import PercentTemplate.Text.Blank
import PercentTemplate.Text.DecimalDigit
import PercentTemplate.Text.Hex
import PercentTemplate.Text.Quoted

/-!
# Integers as text

Reading and writing integers of any size. Decimal conversions are refused beyond a fixed number of
digits, so that hostile text cannot make them slow; bases that are powers of two have no limit.

## Main definitions

- `Integer.maxDigits` — the most decimal digits that are converted
- `Integer.read` — the integer that a literal stands for in a base
- `Integer.text` — the decimal text of an integer
-/

namespace PercentTemplate.Integer

/-- The most digits that a decimal conversion handles. -/
def maxDigits : Nat := 4300

/-- Why a text and an integer could not be converted into each other. -/
inductive Fault
  /-- The decimal literal has this many digits, more than the limit. -/
  | literalTooLong (digits : Nat)
  /-- The decimal text of the integer would have more digits than the limit. -/
  | textTooLong
  | malformed (base : Nat) (literal : String)
  deriving DecidableEq, Repr

/-- The wording of a failed conversion; of a long literal only the beginning is shown. -/
def Fault.message : Fault → String
  | literalTooLong n =>
    "Exceeds the limit (4300 digits) for integer string conversion: value has " ++ toString n
      ++ " digits; use sys.set_int_max_str_digits() to increase the limit"
  | textTooLong =>
    "Exceeds the limit (4300 digits) for integer string conversion; "
      ++ "use sys.set_int_max_str_digits() to increase the limit"
  | malformed base s =>
    "invalid literal for int() with base " ++ toString base ++ ": "
      ++ String.ofList ((Text.quoted s).toList.take 200)

/-- The number that decimal digit characters stand for, the most significant first. -/
def ofDigits (cs : List Char) : Nat :=
  cs.foldl (fun n c => n * 10 + (c.toNat - 48)) 0

/-- The number that an ASCII digit run stands for, if it is within the limit. -/
def ofDigitRun (cs : List Char) : Except Fault Nat :=
  if maxDigits < cs.length then .error (.literalTooLong cs.length) else .ok (ofDigits cs)

/-- The decimal text of `n`, if it is within the limit. -/
def text (n : Int) : Except Fault String :=
  if maxDigits < (Nat.toDigits 10 n.natAbs).length then .error .textTooLong
  else .ok (toString n)

/-- The value of `c` as a digit below `base`: decimal digits of every script and ASCII letters. -/
def digitValue? (base : Nat) (c : Char) : Option Nat :=
  let value :=
    match Text.decimalValue? c with
    | some d => some d
    | none =>
      if 'a' ≤ c ∧ c ≤ 'z' then some (c.toNat - 87)
      else if 'A' ≤ c ∧ c ≤ 'Z' then some (c.toNat - 55)
      else none
  value.filter (· < base)

/-- The digits at the front of `cs`, single underscores between them left out, and the rest;
`none` if an underscore leads, is doubled or trails. -/
def digitRun? (base : Nat) (afterDigit : Bool) : List Char → Option (List Nat × List Char)
  | [] => if afterDigit then some ([], []) else none
  | c :: rest =>
    if c = '_' then
      if afterDigit then digitRun? base false rest else none
    else match digitValue? base c with
    | some d => (digitRun? base true rest).map fun (ds, r) => (d :: ds, r)
    | none => if afterDigit then some ([], c :: rest) else none

/-- Whether `c` is the letter that announces `base` after a leading zero. -/
def isBaseLetter (base : Nat) (c : Char) : Bool :=
  (base = 2 && (c = 'b' || c = 'B')) || (base = 8 && (c = 'o' || c = 'O'))
    || (base = 16 && (c = 'x' || c = 'X'))

/-- The list `cs` without the announcement of `base` and one underscore after it. -/
def dropBaseMark (base : Nat) : List Char → List Char
  | '0' :: c :: rest =>
    if isBaseLetter base c then
      match rest with
      | '_' :: rest => rest
      | rest => rest
    else '0' :: c :: rest
  | cs => cs

/-- The sign of a literal (whether it is negative) and the rest. -/
def takeSign : List Char → Bool × List Char
  | '-' :: rest => (true, rest)
  | '+' :: rest => (false, rest)
  | cs => (false, cs)

/-- The integer that `s` stands for in `base`: blanks around it, a sign, an announcement of the base
and single underscores between digits are allowed. The digit limit is checked before what follows
the digits. -/
def read (base : Nat) (s : String) : Except Fault Int :=
  let (negative, cs) := takeSign (Text.trim Text.isNumberBlank s.toList)
  match digitRun? base false (dropBaseMark base cs) with
  | none => .error (.malformed base s)
  | some (digits, rest) =>
    if base = 10 ∧ maxDigits < digits.length then .error (.literalTooLong digits.length)
    else if rest.isEmpty then
      let n := digits.foldl (fun n d => n * base + d) 0
      .ok (if negative then -(n : Int) else n)
    else .error (.malformed base s)

end PercentTemplate.Integer
