import ApiPages.Number.Binary64
import ApiPages.Text.Digits
import ApiPages.Text.Scan

/-! # TOML values

The values of TOML and the scanners of its strings, numbers and dates.  Numbers and dates are kept as
they are written: only their form and their range are checked. -/

namespace ApiPages

namespace Toml

/-- How a table came about, which decides who may add to it. -/
inductive Origin where
  /-- By the header of a table inside it. -/
  | implicit
  /-- By a header of its own. -/
  | header
  /-- By a dotted key. -/
  | dotted
  /-- Written between braces as one value. -/
  | inline
deriving DecidableEq, Repr

/-- A TOML value. -/
inductive Value where
  | string (s : Text)
  | bool (b : Bool)
  | number (literal : Text)
  | date (literal : Text)
  | array (items : List Value)
  | table (origin : Origin) (fields : List (Text × Value))
  /-- An array of tables with headers, the last one first. -/
  | tables (last : List (Text × Value)) (earlier : List (List (Text × Value)))
deriving Inhabited, Repr

/-- The fields of a table. -/
abbrev Fields := List (Text × Value)

/-! ### Blanks, comments and line ends -/

def isBlank (c : Char) : Bool :=
  c == ' ' || c == '\t'

/-- Whether a character may stand in comments and strings without an escape. -/
def isPlain (c : Char) : Bool :=
  c == '\t' || (0x20 ≤ c.toNat && c.toNat != 0x7F)

def dropBlanks (s : Text) : Text :=
  s.dropWhile isBlank

/-- Skips a comment, if there is one. -/
def dropComment (s : Text) : Text :=
  match s with
  | '#' :: rest => rest.dropWhile isPlain
  | _ => s

/-- Skips blanks and a comment up to the end of a line; none if anything else comes first. -/
def endLine? (s : Text) : Option Text :=
  match dropComment (dropBlanks s) with
  | [] => some []
  | '\n' :: rest => some rest
  | '\r' :: '\n' :: rest => some rest
  | _ => none

/-- Skips blanks, comments and line ends. -/
def dropIdle (s : Text) : Text :=
  match endLine? s with
  | some rest => if rest.length < s.length then dropIdle rest else rest
  | none => dropBlanks s
termination_by s.length

/-! ### Strings -/

/-- The character meant by a letter after a backslash. -/
def escaped? (c : Char) : Option Char :=
  match c with
  | 'b' => some '\x08'
  | 't' => some '\t'
  | 'n' => some '\n'
  | 'f' => some '\x0c'
  | 'r' => some '\r'
  | 'e' => some '\x1b'
  | '"' => some '"'
  | '\\' => some '\\'
  | _ => none

/-- Puts a character before a scanned text. -/
def cons? (c : Option Char) (scanned : Option (Text × Text)) : Option (Text × Text) := do
  let c ← c
  let (s, rest) ← scanned
  pure (c :: s, rest)

/-- Reads a basic string after its opening quote. -/
def basicString? : Text → Option (Text × Text)
  | [] => none
  | '"' :: rest => some ([], rest)
  | '\\' :: 'x' :: a :: b :: rest => cons? (Text.charOfHex? [a, b]) (basicString? rest)
  | '\\' :: 'u' :: a :: b :: c :: d :: rest => cons? (Text.charOfHex? [a, b, c, d]) (basicString? rest)
  | '\\' :: 'U' :: a :: b :: c :: d :: e :: f :: g :: h :: rest =>
    cons? (Text.charOfHex? [a, b, c, d, e, f, g, h]) (basicString? rest)
  | '\\' :: c :: rest => cons? (escaped? c) (basicString? rest)
  | c :: rest => if isPlain c then cons? (some c) (basicString? rest) else none

/-- Reads a literal string after its opening quote. -/
def literalString? : Text → Option (Text × Text)
  | [] => none
  | '\x27' :: rest => some ([], rest)
  | c :: rest => if isPlain c then cons? (some c) (literalString? rest) else none

/-- Where the scan of a basic string of several lines stands: in its text, after a backslash that must
end its line, or in the white space that such a backslash skips. -/
inductive Mode where
  | text
  | lineEnd
  | skip
deriving DecidableEq

/-- Reads a basic string of several lines after its opening quotes. -/
def basicLines? : Mode → Text → Option (Text × Text)
  | .lineEnd, ' ' :: rest => basicLines? .lineEnd rest
  | .lineEnd, '\t' :: rest => basicLines? .lineEnd rest
  | .lineEnd, '\n' :: rest => basicLines? .skip rest
  | .lineEnd, '\r' :: '\n' :: rest => basicLines? .skip rest
  | .lineEnd, _ => none
  | .skip, ' ' :: rest => basicLines? .skip rest
  | .skip, '\t' :: rest => basicLines? .skip rest
  | .skip, '\n' :: rest => basicLines? .skip rest
  | .skip, '\r' :: '\n' :: rest => basicLines? .skip rest
  | _, [] => none
  | _, '"' :: '"' :: '"' :: '"' :: '"' :: rest => some (['"', '"'], rest)
  | _, '"' :: '"' :: '"' :: '"' :: rest => some (['"'], rest)
  | _, '"' :: '"' :: '"' :: rest => some ([], rest)
  | _, '\\' :: ' ' :: rest => basicLines? .lineEnd rest
  | _, '\\' :: '\t' :: rest => basicLines? .lineEnd rest
  | _, '\\' :: '\n' :: rest => basicLines? .skip rest
  | _, '\\' :: '\r' :: '\n' :: rest => basicLines? .skip rest
  | _, '\\' :: 'x' :: a :: b :: rest => cons? (Text.charOfHex? [a, b]) (basicLines? .text rest)
  | _, '\\' :: 'u' :: a :: b :: c :: d :: rest =>
    cons? (Text.charOfHex? [a, b, c, d]) (basicLines? .text rest)
  | _, '\\' :: 'U' :: a :: b :: c :: d :: e :: f :: g :: h :: rest =>
    cons? (Text.charOfHex? [a, b, c, d, e, f, g, h]) (basicLines? .text rest)
  | _, '\\' :: c :: rest => cons? (escaped? c) (basicLines? .text rest)
  | _, '\r' :: '\n' :: rest => cons? (some '\r') (cons? (some '\n') (basicLines? .text rest))
  | _, c :: rest =>
    if isPlain c || c == '\n' then cons? (some c) (basicLines? .text rest) else none

/-- Reads a literal string of several lines after its opening quotes. -/
def literalLines? : Text → Option (Text × Text)
  | [] => none
  | '\x27' :: '\x27' :: '\x27' :: '\x27' :: '\x27' :: rest => some (['\x27', '\x27'], rest)
  | '\x27' :: '\x27' :: '\x27' :: '\x27' :: rest => some (['\x27'], rest)
  | '\x27' :: '\x27' :: '\x27' :: rest => some ([], rest)
  | '\r' :: '\n' :: rest => cons? (some '\r') (cons? (some '\n') (literalLines? rest))
  | c :: rest =>
    if isPlain c || c == '\n' then cons? (some c) (literalLines? rest) else none

/-- Skips a line end right after the opening quotes of a string of several lines. -/
def dropFirstLineEnd : Text → Text
  | '\n' :: rest => rest
  | '\r' :: '\n' :: rest => rest
  | s => s

/-- Reads a string of any kind. -/
def string? (s : Text) : Option (Text × Text) :=
  match s with
  | '"' :: '"' :: '"' :: rest => basicLines? .text (dropFirstLineEnd rest)
  | '"' :: rest => basicString? rest
  | '\x27' :: '\x27' :: '\x27' :: rest => literalLines? (dropFirstLineEnd rest)
  | '\x27' :: rest => literalString? rest
  | _ => none

/-! ### Numbers -/

/-- Digits of some kind with single underscores between them. -/
def isDigits (p : Char → Bool) (s : Text) : Bool :=
  (s.splitOn '_').all fun part => !part.isEmpty && part.all p

/-- The number written by digits of a base, with or without underscores. -/
def digitsValue (base : Nat) (s : Text) : Nat :=
  Text.ofDigits base (s.filterMap Text.hexValue?)

/-- Splits a sign off; the first component says whether it is a minus. -/
def splitSign (s : Text) : Bool × Text :=
  match s with
  | '+' :: rest => (false, rest)
  | '-' :: rest => (true, rest)
  | _ => (false, s)

/-- A decimal number without sign and without superfluous zeros at its start. -/
def isWhole (s : Text) : Bool :=
  isDigits Char.isDigit s && (s.head? != some '0' || s.length == 1)

/-- Whether a text is an integer in the range of 128 bits, signed or not. -/
def isInteger (s : Text) : Bool :=
  match s with
  | '0' :: 'x' :: rest =>
    isDigits (fun c => (Text.hexValue? c).isSome) rest && digitsValue 16 rest < Nat.pow 2 128
  | '0' :: 'o' :: rest =>
    isDigits (fun c => '0' ≤ c && c ≤ '7') rest && digitsValue 8 rest < Nat.pow 2 128
  | '0' :: 'b' :: rest =>
    isDigits (fun c => c == '0' || c == '1') rest && digitsValue 2 rest < Nat.pow 2 128
  | _ =>
    let (negative, digits) := splitSign s
    isWhole digits &&
      (if negative then digitsValue 10 digits ≤ Nat.pow 2 127
        else digitsValue 10 digits < Nat.pow 2 128)

/-- Whether `n` times a power of ten is in the range of binary numbers of 64 bits.  Only exponents
near the bounds of that range are computed with. -/
def isInRange (n : Nat) (exponent : Int) : Bool :=
  let size := (Nat.toDigits 10 n).length + exponent
  if n = 0 ∨ size < -400 then true
  else if 400 < size then false
  else
    match exponent with
    | .ofNat e => (Binary64.ofRatio? (n * Nat.pow 10 e) 1).isSome
    | .negSucc e => (Binary64.ofRatio? n (Nat.pow 10 (e + 1))).isSome

/-- Whether a text is a number with a fraction or an exponent, or one of the words for the values that
are no numbers. -/
def isFloat (s : Text) : Bool :=
  let (_, s) := splitSign s
  let (mantissa, power) := Text.takeRun (fun c => c != 'e' && c != 'E') s
  let (whole, fraction) := Text.takeRun (· != '.') mantissa
  let fraction := fraction.drop 1
  let (negative, exponent) := splitSign (power.drop 1)
  s = "inf" || s = "nan" ||
    (isWhole whole && mantissa.length + power.length != whole.length &&
      (mantissa.length == whole.length || isDigits Char.isDigit fraction) &&
      (power.isEmpty || isDigits Char.isDigit exponent) &&
      let size : Int := digitsValue 10 exponent
      isInRange (digitsValue 10 (whole ++ fraction))
        ((if negative then -size else size) - ↑(fraction.filter Char.isDigit).length))

/-! ### Dates and times -/

/-- The value of exactly `n` digits. -/
def fixedDigits? (n : Nat) (s : Text) : Option Nat :=
  if s.length = n ∧ s.all Char.isDigit then some (Text.decimalValue s) else none

def isLeapYear (year : Nat) : Bool :=
  year % 4 == 0 && (year % 100 != 0 || year % 400 == 0)

def daysInMonth (year month : Nat) : Nat :=
  if month = 2 then if isLeapYear year then 29 else 28
  else if [4, 6, 9, 11].contains month then 30 else 31

def isDate (s : Text) : Bool :=
  match s.splitOn '-' with
  | [y, m, d] =>
    match fixedDigits? 4 y, fixedDigits? 2 m, fixedDigits? 2 d with
    | some y, some m, some d => 1 ≤ m && m ≤ 12 && 1 ≤ d && d ≤ daysInMonth y m
    | _, _, _ => false
  | _ => false

/-- Whether a text is two digits for a number of at most `max`. -/
def isUpTo (max : Nat) (s : Text) : Bool :=
  (fixedDigits? 2 s).any (· ≤ max)

def isSecond (s : Text) : Bool :=
  match s.splitOn '.' with
  | [sec] => isUpTo 60 sec
  | [sec, fraction] => isUpTo 60 sec && !fraction.isEmpty && fraction.all Char.isDigit
  | _ => false

def isTime (s : Text) : Bool :=
  match s.splitOn ':' with
  | [h, m] => isUpTo 23 h && isUpTo 59 m
  | [h, m, sec] => isUpTo 23 h && isUpTo 59 m && isSecond sec
  | _ => false

/-- Whether a text is a time with an offset. -/
def isOffsetTime (s : Text) : Bool :=
  let (time, offset) := Text.takeRun (fun c => c.isDigit || c == ':' || c == '.') s
  isTime time &&
    match offset with
    | ['Z'] | ['z'] => true
    | c :: rest =>
      (c == '+' || c == '-') &&
        match rest.splitOn ':' with
        | [h, m] => isUpTo 23 h && isUpTo 59 m
        | _ => false
    | [] => false

def isDateTime (s : Text) : Bool :=
  let day := s.take 10
  let mark := (s.drop 10).head?
  let time := s.drop 11
  isTime s || isDate s ||
    (isDate day && (mark == some 'T' || mark == some 't' || mark == some ' ') &&
      (isTime time || isOffsetTime time))

/-! ### Scalars -/

def isScalarChar (c : Char) : Bool :=
  c.isAlphanum || c == '+' || c == '-' || c == '_' || c == '.' || c == ':'

/-- The characters of a scalar.  A blank may stand between a date and a time. -/
def takeScalar (s : Text) : Text × Text :=
  let (first, rest) := Text.takeRun isScalarChar s
  match rest with
  | ' ' :: c :: more =>
    if isDate first && c.isDigit then
      let (time, rest) := Text.takeRun isScalarChar (c :: more)
      (first ++ ' ' :: time, rest)
    else (first, rest)
  | _ => (first, rest)

/-- Reads a truth value, a number or a date. -/
def scalar? (s : Text) : Option (Value × Text) :=
  let (literal, rest) := takeScalar s
  if literal = "true" then some (.bool true, rest)
  else if literal = "false" then some (.bool false, rest)
  else if isInteger literal || isFloat literal then some (.number literal, rest)
  else if isDateTime literal then some (.date literal, rest)
  else none

end Toml

end ApiPages
