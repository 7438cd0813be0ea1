import PercentTemplate.Text.Hex

/-!
# UTF-8

Encoding of characters as bytes, and decoding that names the first fault: where it starts, how many
bytes it covers and why they cannot be read.

## Main definitions

- `Text.Utf8.encode` — the bytes of a text
- `Text.Utf8.Fault` — the first unreadable stretch of a byte sequence
- `Text.Utf8.decode` — the text of a byte sequence, or its first fault
-/

namespace PercentTemplate.Text.Utf8

/-- The bytes of the character with code `n`, the lead byte first. -/
def encodeCode (n : Nat) : List UInt8 :=
  if n < 0x80 then [.ofNat n]
  else if n < 0x800 then [.ofNat (0xC0 + n / 64), .ofNat (0x80 + n % 64)]
  else if n < 0x10000 then
    [.ofNat (0xE0 + n / 4096), .ofNat (0x80 + n / 64 % 64), .ofNat (0x80 + n % 64)]
  else
    [.ofNat (0xF0 + n / 262144), .ofNat (0x80 + n / 4096 % 64), .ofNat (0x80 + n / 64 % 64),
      .ofNat (0x80 + n % 64)]

def encode (s : String) : List UInt8 :=
  s.toList.flatMap fun c => encodeCode c.toNat

/-- Why a stretch of bytes is no character. -/
inductive Cause
  | invalidStart
  | invalidContinuation
  | unexpectedEnd
  deriving DecidableEq, Repr

/-- The first unreadable stretch of a byte sequence. -/
structure Fault where
  first : Nat
  length : Nat
  byte : UInt8
  cause : Cause
  deriving DecidableEq, Repr

def isContinuation (b : UInt8) : Bool :=
  0x80 ≤ b.toNat && b.toNat < 0xC0

/-- Whether `second` may follow the lead byte of a character of three or four bytes: overlong
forms, surrogates and codes above the last one are excluded here. -/
def isSecond (lead : Nat) (second : UInt8) : Bool :=
  isContinuation second
    && (lead != 0xE0 || 0xA0 ≤ second.toNat) && (lead != 0xED || second.toNat < 0xA0)
    && (lead != 0xF0 || 0x90 ≤ second.toNat) && (lead != 0xF4 || second.toNat < 0x90)

/-- The six bits that a continuation byte carries. -/
def bits (b : UInt8) : Nat := b.toNat % 64

/-- Decode the remaining bytes, which start at offset `pos`, behind the reversed result so far. -/
def decodeAux (pos : Nat) (done : List Char) : List UInt8 → Except Fault (List Char)
  | [] => .ok done.reverse
  | lead :: rest =>
    let n := lead.toNat
    let refuse (length : Nat) (cause : Cause) : Except Fault (List Char) :=
      .error ⟨pos, length, lead, cause⟩
    if n < 0x80 then decodeAux (pos + 1) (Char.ofNat n :: done) rest
    else if n < 0xC2 || 0xF5 ≤ n then refuse 1 .invalidStart
    else match rest with
    | [] => refuse 1 .unexpectedEnd
    | second :: rest =>
      if n < 0xE0 then
        if isContinuation second then
          decodeAux (pos + 2) (Char.ofNat (n % 32 * 64 + bits second) :: done) rest
        else refuse 1 .invalidContinuation
      else if !isSecond n second then refuse 1 .invalidContinuation
      else match rest with
      | [] => refuse 2 .unexpectedEnd
      | third :: rest =>
        if !isContinuation third then refuse 2 .invalidContinuation
        else if n < 0xF0 then
          decodeAux (pos + 3)
            (Char.ofNat (n % 16 * 4096 + bits second * 64 + bits third) :: done) rest
        else match rest with
        | [] => refuse 3 .unexpectedEnd
        | fourth :: rest =>
          if isContinuation fourth then
            decodeAux (pos + 4)
              (Char.ofNat (n % 8 * 262144 + bits second * 4096 + bits third * 64 + bits fourth)
                :: done) rest
          else refuse 3 .invalidContinuation

/-- The characters of a byte sequence, or its first fault. -/
def decode (bytes : List UInt8) : Except Fault (List Char) :=
  decodeAux 0 [] bytes

def Cause.message : Cause → String
  | invalidStart => "invalid start byte"
  | invalidContinuation => "invalid continuation byte"
  | unexpectedEnd => "unexpected end of data"

/-- The message for an unreadable byte sequence. Positions count bytes from zero, and a stretch of
several bytes is given by its first and last position. -/
def Fault.message (f : Fault) : String :=
  let place :=
    if f.length = 1 then
      "byte 0x" ++ String.ofList (Text.hexText 2 f.byte.toNat) ++ " in position "
        ++ toString f.first
    else "bytes in position " ++ toString f.first ++ "-" ++ toString (f.first + f.length - 1)
  "'utf-8' codec can't decode " ++ place ++ ": " ++ f.cause.message

end PercentTemplate.Text.Utf8
