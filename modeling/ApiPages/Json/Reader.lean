import ApiPages.Json.Basic
import ApiPages.Text.Scan

/-! # Reading JSON

Reading has two steps.  `scan?` cuts a text into tokens; `Json.parse?` runs over the tokens with a
stack of the arrays and objects that are still open, so that nesting needs no recursion. -/

namespace ApiPages

namespace Json

/-! ### Tokens -/

inductive Token where
  | openArray
  | closeArray
  | openObject
  | closeObject
  | comma
  | colon
  | value (v : Json)

/-- The white space of JSON. -/
def isSpace (c : Char) : Bool :=
  c == ' ' || c == '\t' || c == '\n' || c == '\r'

/-- Reads a string after its opening quote: the literal and the rest of the text. -/
def scanString? : Text → Option (Text × Text)
  | [] => none
  | '"' :: rest => some ([], rest)
  | '\\' :: 'u' :: a :: b :: c :: d :: rest =>
    if (hexNumber? [a, b, c, d]).isSome then
      (scanString? rest).map fun (s, r) => ('\\' :: 'u' :: a :: b :: c :: d :: s, r)
    else none
  | '\\' :: e :: rest =>
    if (escaped? e).isSome then (scanString? rest).map fun (s, r) => ('\\' :: e :: s, r) else none
  | c :: rest =>
    if c.toNat < 0x20 || c == '\\' then none
    else (scanString? rest).map fun (s, r) => (c :: s, r)

/-- Reads a non-empty run of digits. -/
def scanDigits? (s : Text) : Option (Text × Text) :=
  let ds := s.takeWhile Char.isDigit
  if ds.isEmpty then none else some (ds, s.dropWhile Char.isDigit)

/-- Reads the digits before the point; a leading zero stands alone. -/
def scanWhole? (s : Text) : Option (Text × Text) :=
  match s with
  | '0' :: rest => some (['0'], rest)
  | _ => scanDigits? s

/-- Reads the fraction of a number, if there is one. -/
def scanFraction? (s : Text) : Option (Option Text × Text) :=
  match s with
  | '.' :: rest => (scanDigits? rest).map fun (ds, r) => (some ds, r)
  | _ => some (none, s)

/-- Reads the exponent of a number, if there is one. -/
def scanExponent? (s : Text) : Option (Option (Bool × Text) × Text) :=
  match s with
  | c :: rest =>
    if c = 'e' ∨ c = 'E' then
      match rest with
      | '-' :: rest => (scanDigits? rest).map fun (ds, r) => (some (true, ds), r)
      | '+' :: rest => (scanDigits? rest).map fun (ds, r) => (some (false, ds), r)
      | _ => (scanDigits? rest).map fun (ds, r) => (some (false, ds), r)
    else some (none, s)
  | [] => some (none, [])

/-- Reads the sign of a number. -/
def scanSign : Text → Bool × Text
  | '-' :: rest => (true, rest)
  | s => (false, s)

/-- Reads a number and the rest of the text. -/
def scanNumber? (s : Text) : Option (Number × Text) := do
  let (whole, rest) ← scanWhole? (scanSign s).2
  let (fraction, rest) ← scanFraction? rest
  let (exponent, rest) ← scanExponent? rest
  pure (⟨(scanSign s).1, whole, fraction, exponent⟩, rest)

/-- Reads the token at the head of a non-empty text. -/
def scanToken? (c : Char) (rest : Text) : Option (Token × Text) :=
  match c, rest with
  | '[', _ => some (.openArray, rest)
  | ']', _ => some (.closeArray, rest)
  | '{', _ => some (.openObject, rest)
  | '}', _ => some (.closeObject, rest)
  | ',', _ => some (.comma, rest)
  | ':', _ => some (.colon, rest)
  | '"', _ => (scanString? rest).map fun (s, r) => (.value (.string s), r)
  | 'n', 'u' :: 'l' :: 'l' :: rest => some (.value .null, rest)
  | 't', 'r' :: 'u' :: 'e' :: rest => some (.value (.bool true), rest)
  | 'f', 'a' :: 'l' :: 's' :: 'e' :: rest => some (.value (.bool false), rest)
  | _, _ => (scanNumber? (c :: rest)).map fun (n, r) => (.value (.number n), r)

/-- The tokens of a text. -/
def scan? (s : Text) : Option (List Token) :=
  (Text.scanAll step? () (Text.dropEndWhile isSpace s)).map Prod.fst
where
  step? (_ : Unit) (s : Text) : Option (Token × Unit × Text) :=
    match s.dropWhile isSpace with
    | [] => none
    | c :: rest => (scanToken? c rest).map fun (token, rest) => (token, (), rest)

/-! ### Values from tokens -/

/-- An array or object that is still open, with its contents in reverse order. -/
inductive Frame where
  | array (items : List Json)
  | object (fields : List (Text × Json)) (name : Text)

/-- What may come next. -/
inductive Expect where
  /-- A value, or the end of the array just opened. -/
  | itemOrEnd
  | item
  /-- A field's name, or the end of the object just opened. -/
  | nameOrEnd
  | name
  | colon
  /-- A comma, or the end of the innermost array or object. -/
  | commaOrEnd
  /-- Nothing: the value is complete. -/
  | nothing (v : Json)

structure Parse where
  frames : List Frame
  expect : Expect

/-- Puts a complete value where it belongs. -/
def Parse.place (v : Json) : List Frame → Parse
  | [] => ⟨[], .nothing v⟩
  | .array items :: frames => ⟨.array (v :: items) :: frames, .commaOrEnd⟩
  | .object fields name :: frames => ⟨.object ((name, v) :: fields) name :: frames, .commaOrEnd⟩

/-- Reads a token where a value is expected. -/
def Parse.beginValue? (frames : List Frame) : Token → Option Parse
  | .openArray => some ⟨.array [] :: frames, .itemOrEnd⟩
  | .openObject => some ⟨.object [] [] :: frames, .nameOrEnd⟩
  | .value v => some (Parse.place v frames)
  | _ => none

/-- Reads a token where the name of a field is expected. -/
def Parse.beginField? : List Frame → Token → Option Parse
  | .object fields _ :: frames, .value (.string s) => some ⟨.object fields s :: frames, .colon⟩
  | _, _ => none

/-- Reads a token that closes the innermost array or object. -/
def Parse.close? : List Frame → Token → Option Parse
  | .array items :: frames, .closeArray => some (Parse.place (.array items.reverse) frames)
  | .object fields _ :: frames, .closeObject =>
    some (Parse.place (.object fields.reverse) frames)
  | _, _ => none

/-- Reads one token. -/
def Parse.step? (p : Parse) (token : Token) : Option Parse :=
  match p.expect with
  | .itemOrEnd => (Parse.close? p.frames token).or (Parse.beginValue? p.frames token)
  | .item => Parse.beginValue? p.frames token
  | .nameOrEnd => (Parse.close? p.frames token).or (Parse.beginField? p.frames token)
  | .name => Parse.beginField? p.frames token
  | .colon =>
    match token with
    | .colon => some { p with expect := .item }
    | _ => none
  | .commaOrEnd =>
    match token, p.frames with
    | .comma, .array _ :: _ => some { p with expect := .item }
    | .comma, .object _ _ :: _ => some { p with expect := .name }
    | _, _ => Parse.close? p.frames token
  | .nothing _ => none

/-- The value written in a text, if the text holds exactly one value. -/
def parse? (s : Text) : Option Json := do
  let tokens ← scan? s
  let p ← tokens.foldlM Parse.step? ⟨[], .item⟩
  match p.expect with
  | .nothing v => some v
  | _ => none

end Json

end ApiPages
