import ApiPages.Number.Binary64
import ApiPages.Text.Digits

/-! # JSON values

A JSON value keeps its numbers and strings as they are written, as literals.  They are decoded only
where they are used: a number as an integer of 64 bits (`Number.toInt64?`) or as a binary number
(`Number.toBinary64?`), a string as a text (`decode?`).  `Json.isPlain` holds of the values all of
whose parts can be decoded. -/

namespace ApiPages

namespace Json

/-- A number as written: its sign, its digits before and after the point, and its exponent. -/
structure Number where
  negative : Bool
  whole : Text
  fraction : Option Text
  /-- Whether the exponent is negative, and its digits. -/
  exponent : Option (Bool × Text)
deriving DecidableEq, Repr

end Json

/-- A JSON value.  Strings and the names of fields are the texts between the quotes, with their
escapes; fields may repeat. -/
inductive Json where
  | null
  | bool (b : Bool)
  | number (n : Json.Number)
  | string (literal : Text)
  | array (items : List Json)
  | object (fields : List (Text × Json))
deriving Inhabited, Repr

namespace Json

export Text (digitValue decimalValue hexValue? hexNumber?)

/-! ### Numbers -/

/-- The greatest significand of a number: it has 64 bits. -/
def maxSignificand : Nat := Nat.pow 2 64 - 1

/-- Reads digits before the point into a significand; the digits from the first one that does not
fit are only counted. -/
def takeWhole (significand : Nat) : Text → Nat × Nat
  | [] => (significand, 0)
  | c :: cs =>
    let next := significand * 10 + digitValue c
    if next ≤ maxSignificand then takeWhole next cs else (significand, cs.length + 1)

/-- Reads digits after the point into a significand, up to the first one that does not fit, and
counts those read. -/
def takeFraction (significand : Nat) : Text → Nat × Nat
  | [] => (significand, 0)
  | c :: cs =>
    let next := significand * 10 + digitValue c
    if next ≤ maxSignificand then
      let (final, count) := takeFraction next cs
      (final, count + 1)
    else (significand, 0)

namespace Number

def ofInt (n : Int) : Number :=
  ⟨decide (n < 0), Nat.toDigits 10 n.natAbs, none, none⟩

/-- The exponent that is written, zero if there is none. -/
def writtenExponent (n : Number) : Int :=
  match n.exponent with
  | none => 0
  | some (negative, ds) => if negative then -(decimalValue ds : Int) else decimalValue ds

/-- The value as a binary number: the significand is read with 64 bits and then scaled by a power
of ten.  None beyond the finite range. -/
def toBinary64? (n : Number) : Option Binary64 := do
  let (significand, dropped) := takeWhole 0 n.whole
  let (significand, taken) := takeFraction significand (n.fraction.getD [])
  let x ← Binary64.ofRatio? significand 1
  let y ← x.scaleTen? (dropped - taken + n.writtenExponent)
  pure { y with negative := n.negative }

/-- The value as an integer of 64 bits, if the number is written as one; `-0` is not. -/
def toInt64? (n : Number) : Option Int :=
  match n.fraction, n.exponent with
  | none, none =>
    let v := decimalValue n.whole
    if n.negative then if 1 ≤ v ∧ v ≤ Nat.pow 2 63 then some (-(v : Int)) else none
    else if v < Nat.pow 2 63 then some v else none
  | _, _ => none

end Number

/-! ### Strings -/

/-- The character meant by a letter after a backslash. -/
def escaped? (c : Char) : Option Char :=
  match c with
  | '"' => some '"'
  | '\\' => some '\\'
  | '/' => some '/'
  | 'b' => some '\x08'
  | 'f' => some '\x0c'
  | 'n' => some '\n'
  | 'r' => some '\r'
  | 't' => some '\t'
  | _ => none

/-- A part of a string: a character, or a UTF-16 unit given by its number. -/
inductive Piece where
  | char (c : Char)
  | unit (n : Nat)

/-- The parts of a string literal. -/
def pieces? : Text → Option (List Piece)
  | [] => some []
  | '\\' :: 'u' :: a :: b :: c :: d :: rest => do
    pure (.unit (← hexNumber? [a, b, c, d]) :: (← pieces? rest))
  | '\\' :: e :: rest => do pure (.char (← escaped? e) :: (← pieces? rest))
  | c :: rest => (pieces? rest).map (.char c :: ·)

def isHighSurrogate (n : Nat) : Bool :=
  0xD800 ≤ n && n < 0xDC00

def isLowSurrogate (n : Nat) : Bool :=
  0xDC00 ≤ n && n < 0xE000

/-- Joins the parts of a string; surrogates must come in pairs. -/
def assemble? : List Piece → Option Text
  | [] => some []
  | .char c :: rest => (assemble? rest).map (c :: ·)
  | .unit n :: .unit m :: rest =>
    if isHighSurrogate n then
      if isLowSurrogate m then
        (assemble? rest).map (Char.ofNat (0x10000 + (n - 0xD800) * 0x400 + (m - 0xDC00)) :: ·)
      else none
    else if isLowSurrogate n then none
    else (assemble? (.unit m :: rest)).map (Char.ofNat n :: ·)
  | .unit n :: rest =>
    if isHighSurrogate n || isLowSurrogate n then none
    else (assemble? rest).map (Char.ofNat n :: ·)

/-- The text meant by a string literal. -/
def decode? (literal : Text) : Option Text :=
  (pieces? literal).bind assemble?

/-- The two lower hexadecimal digits of a control character. -/
def hexDigits2 (n : Nat) : Text :=
  [Nat.digitChar (n / 16), Nat.digitChar (n % 16)]

/-- The escaped form of a character inside a string. -/
def escapeChar (c : Char) : Text :=
  match c with
  | '"' => ['\\', '"']
  | '\\' => ['\\', '\\']
  | '\x08' => ['\\', 'b']
  | '\x0c' => ['\\', 'f']
  | '\n' => ['\\', 'n']
  | '\r' => ['\\', 'r']
  | '\t' => ['\\', 't']
  | c => if c.toNat < 0x20 then "\\u00".toList ++ hexDigits2 c.toNat else [c]

/-- The string literal of a text. -/
def encode (s : Text) : Text :=
  s.flatMap escapeChar

/-! ### Values -/

def ofText (s : Text) : Json :=
  .string (encode s)

def ofInt (n : Int) : Json :=
  .number (.ofInt n)

/-- The null value in place of an absent text. -/
def ofText? (s : Option Text) : Json :=
  s.elim .null ofText

def ofTexts (ss : List Text) : Json :=
  .array (ss.map ofText)

/-- An object with plain field names. -/
def record (fields : List (Text × Json)) : Json :=
  .object (fields.map fun (name, v) => (encode name, v))

/-- How deep the arrays and objects of a document may be nested. -/
def maxDepth : Nat := 127

/-- Whether every string can be decoded, every number is finite, and arrays and objects are nested
at most `depth` times. -/
def isPlain (depth : Nat) : Json → Bool
  | .null => true
  | .bool _ => true
  | .number n => n.toBinary64?.isSome
  | .string s => (decode? s).isSome
  | .array items =>
    match depth with
    | 0 => false
    | depth + 1 => items.attach.all fun ⟨v, _⟩ => v.isPlain depth
  | .object fields =>
    match depth with
    | 0 => false
    | depth + 1 =>
      fields.attach.all fun ⟨(name, v), _⟩ => (decode? name).isSome && v.isPlain depth
termination_by v => sizeOf v
decreasing_by
  · rename_i h
    have := List.sizeOf_lt_of_mem h
    simp only [Json.array.sizeOf_spec]
    omega
  · rename_i h
    have := List.sizeOf_lt_of_mem h
    simp only [Prod.mk.sizeOf_spec, Json.object.sizeOf_spec] at *
    omega

end Json

end ApiPages
