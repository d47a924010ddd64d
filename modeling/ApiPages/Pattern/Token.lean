import ApiPages.Pattern.Expr
import ApiPages.Text.Digits
import ApiPages.Text.Scan

/-! # Tokens of patterns

A pattern is cut into tokens before it is parsed.  The only state is how many brackets of character
classes are open, because other rules hold inside them. -/

namespace ApiPages

namespace Pattern

/-- What can be switched inside a pattern. -/
inductive Flag where
  | caseless
  | multiLine
  | dotAll
  /-- A flag that does not change which texts match. -/
  | idle (name : Char)
deriving DecidableEq, Repr

/-- Flags to be switched on and off. -/
structure FlagChange where
  on : List Flag := []
  off : List Flag := []

/-- How two character classes are combined. -/
inductive SetOp where
  | inter
  | diff
  | symmDiff

inductive Token where
  | literal (c : Char)
  | set (s : CharSet)
  | dot
  | caret
  | dollar
  | look (l : Look)
  | openGroup (change : FlagChange) (name : Option Text)
  | flags (change : FlagChange)
  | closeGroup
  | bar
  | rep (least : Nat) (most : Option Nat)
  /-- An opening bracket with the characters after it that stand for themselves. -/
  | openClass (negated : Bool) (literals : Text)
  | classRange (first last : Char)
  | classSet (s : CharSet)
  | classOp (op : SetOp)
  | closeClass

/-! ### Escapes -/

/-- What an escape means. -/
inductive Escape where
  | char (c : Char)
  | set (s : CharSet)
  | look (l : Look)

/-- The character given by hexadecimal digits, of which there must be some. -/
def charOfHex? (ds : Text) : Option Char :=
  if ds.isEmpty then none else Text.charOfHex? ds

/-- A character by its number: in braces, or with a fixed number of digits. -/
def scanHex? (digits : Nat) (s : Text) : Option (Char × Text) :=
  match s with
  | '{' :: rest =>
    match Text.cutFirst? ['}'] rest with
    | some (ds, rest) => (charOfHex? ds).map (·, rest)
    | none => none
  | _ =>
    if s.length < digits then none else (charOfHex? (s.take digits)).map (·, s.drop digits)

/-- Whether a character may be escaped in order to stand for itself. -/
def isEscapable (c : Char) : Bool :=
  c.toNat < 0x80 && !c.isAlphanum

/-- Reads what follows a backslash. -/
def scanEscape? (c : Char) (rest : Text) : Option (Escape × Text) :=
  match c with
  | 'd' => some (.set .digit, rest)
  | 'D' => some (.set (.compl .digit), rest)
  | 'w' => some (.set .word, rest)
  | 'W' => some (.set (.compl .word), rest)
  | 's' => some (.set .space, rest)
  | 'S' => some (.set (.compl .space), rest)
  | 'b' => some (.look .wordEdge, rest)
  | 'B' => some (.look .notWordEdge, rest)
  | '<' => some (.look .wordStart, rest)
  | '>' => some (.look .wordEnd, rest)
  | 'A' => some (.look .textStart, rest)
  | 'z' => some (.look .textEnd, rest)
  | 'a' => some (.char '\x07', rest)
  | 'f' => some (.char '\x0c', rest)
  | 'n' => some (.char '\n', rest)
  | 'r' => some (.char '\r', rest)
  | 't' => some (.char '\t', rest)
  | 'v' => some (.char '\x0b', rest)
  | 'x' => (scanHex? 2 rest).map fun (c, rest) => (.char c, rest)
  | 'u' => (scanHex? 4 rest).map fun (c, rest) => (.char c, rest)
  | 'U' => (scanHex? 8 rest).map fun (c, rest) => (.char c, rest)
  | _ => if isEscapable c then some (.char c, rest) else none

/-! ### Groups -/

def flagOf? (c : Char) : Option Flag :=
  match c with
  | 'i' => some .caseless
  | 'm' => some .multiLine
  | 's' => some .dotAll
  | 'U' => some (.idle 'U')
  | 'u' => some (.idle 'u')
  | _ => none

/-- Reads flags, after at most one `-` those to be switched off. -/
def flagChange? (s : Text) : Option FlagChange := do
  let (on, off) ← match s.splitOn '-' with
    | [on] => some (on, none)
    | [on, off] => some (on, some off)
    | _ => none
  if off = some [] then none
  let on ← on.mapM flagOf?
  let off ← (off.getD []).mapM flagOf?
  if (on ++ off).eraseDups.length = (on ++ off).length then some ⟨on, off⟩ else none

/-- Whether a text can name a group. -/
def isGroupName (s : Text) : Bool :=
  match s with
  | [] => false
  | c :: cs =>
    (CharSet.isWord c && !CharSet.isDigit c) &&
      cs.all fun c => CharSet.isWord c || c == '.' || c == '[' || c == ']'

/-- Reads the name of a group up to its closing `>`. -/
def scanGroupName? (s : Text) : Option (Token × Text) :=
  match Text.cutFirst? ['>'] s with
  | some (name, rest) => if isGroupName name then some (.openGroup {} (some name), rest) else none
  | none => none

/-- Reads what follows an opening parenthesis. -/
def scanGroup? (s : Text) : Option (Token × Text) :=
  match s with
  | '?' :: 'P' :: '<' :: rest => scanGroupName? rest
  | '?' :: '<' :: rest => scanGroupName? rest
  | '?' :: rest =>
    let (letters, rest) := Text.takeRun (fun c => c.isAlpha || c == '-') rest
    match rest with
    | ':' :: rest => (flagChange? letters).map fun change => (.openGroup change none, rest)
    | ')' :: rest =>
      if letters.isEmpty then none
      else (flagChange? letters).map fun change => (.flags change, rest)
    | _ => none
  | _ => some (.openGroup {} none, s)

/-! ### Repetitions -/

/-- A number of repetitions has 32 bits. -/
def maxCount : Nat := Nat.pow 2 32 - 1

/-- Reads a count with white space around it. -/
def count? (s : Text) : Option Nat :=
  let ds := Text.trim s
  let n := Text.decimalValue ds
  if !ds.isEmpty && ds.all Char.isDigit && n ≤ maxCount then some n else none

/-- The bounds of a repetition, given without their braces. -/
def bounds? (s : Text) : Option (Nat × Option Nat) :=
  match s.splitOn ',' with
  | [n] => (count? n).map fun n => (n, some n)
  | [least, most] => do
    let least ← count? least
    if (Text.trim most).isEmpty then pure (least, none)
    else
      let most ← count? most
      if least ≤ most then pure (least, some most) else none
  | _ => none

/-- Skips the mark of a repetition that prefers to be short. -/
def dropLazy : Text → Text
  | '?' :: rest => rest
  | s => s

/-! ### Character classes -/

/-- Reads an opening bracket: dashes at the start stand for themselves, and so does a closing
bracket in the first place. -/
def scanClass (s : Text) : Token × Text :=
  let (negated, s) := match s with
    | '^' :: rest => (true, rest)
    | _ => (false, s)
  let (dashes, s) := Text.takeRun (· == '-') s
  match dashes, s with
  | [], ']' :: rest => (.openClass negated [']'], rest)
  | _, _ => (.openClass negated dashes, s)

/-- Reads the name of an ASCII class after `[:`. -/
def scanAsciiClass? (s : Text) : Option (Token × Text) :=
  let (negated, s) := match s with
    | '^' :: rest => (true, rest)
    | _ => (false, s)
  match Text.takeRun (· != ':') s with
  | (name, ':' :: ']' :: rest) =>
    (CharSet.ascii? name).map fun set => (.classSet (if negated then .compl set else set), rest)
  | _ => none

/-- Reads one member of a class. -/
def scanMember? (s : Text) : Option (Escape × Text) :=
  match s with
  | [] => none
  | '\\' :: c :: rest => scanEscape? c rest
  | c :: rest => if c = '\\' then none else some (.char c, rest)

/-- Reads a member of a class or a range of them. -/
def scanRange? (s : Text) : Option (Token × Text) := do
  let (first, rest) ← scanMember? s
  let isRange := match rest with
    | '-' :: next :: _ => next != ']' && next != '-'
    | _ => false
  if isRange then
    let (last, rest) ← scanMember? (rest.drop 1)
    match first, last with
    | .char a, .char b => if a ≤ b then some (.classRange a b, rest) else none
    | _, _ => none
  else
    match first with
    | .char c => some (.classRange c c, rest)
    | .set s => some (.classSet s, rest)
    | .look _ => none

/-- Reads a token inside a class, of which `depth` brackets are open. -/
def scanInClass? (depth : Nat) (s : Text) : Option (Token × Nat × Text) :=
  match s with
  | ']' :: rest => some (.closeClass, depth - 1, rest)
  | '[' :: rest =>
    let nested := let (token, rest) := scanClass rest; some (token, depth + 1, rest)
    match rest with
    | ':' :: name =>
      ((scanAsciiClass? name).map fun (token, rest) => (token, depth, rest)).or nested
    | _ => nested
  | '&' :: '&' :: rest => some (.classOp .inter, depth, rest)
  | '-' :: '-' :: rest => some (.classOp .diff, depth, rest)
  | '~' :: '~' :: rest => some (.classOp .symmDiff, depth, rest)
  | _ => (scanRange? s).map fun (token, rest) => (token, depth, rest)

/-- Reads a token outside of classes. -/
def scanOutside? (s : Text) : Option (Token × Nat × Text) :=
  match s with
  | [] => none
  | '[' :: rest => let (token, rest) := scanClass rest; some (token, 1, rest)
  | '(' :: rest => (scanGroup? rest).map fun (token, rest) => (token, 0, rest)
  | ')' :: rest => some (.closeGroup, 0, rest)
  | '|' :: rest => some (.bar, 0, rest)
  | '.' :: rest => some (.dot, 0, rest)
  | '^' :: rest => some (.caret, 0, rest)
  | '$' :: rest => some (.dollar, 0, rest)
  | '*' :: rest => some (.rep 0 none, 0, dropLazy rest)
  | '+' :: rest => some (.rep 1 none, 0, dropLazy rest)
  | '?' :: rest => some (.rep 0 (some 1), 0, dropLazy rest)
  | '{' :: rest => do
    let (inner, rest) ← Text.cutFirst? ['}'] rest
    let (least, most) ← bounds? inner
    pure (.rep least most, 0, dropLazy rest)
  | '\\' :: c :: rest => do
    let (escape, rest) ← scanEscape? c rest
    match escape with
    | .char c => pure (.literal c, 0, rest)
    | .set s => pure (.set s, 0, rest)
    | .look l => pure (.look l, 0, rest)
  | c :: rest => if c = '\\' then none else some (.literal c, 0, rest)

/-- The tokens of a pattern; every class must be closed. -/
def tokens? (s : Text) : Option (List Token) :=
  match Text.scanAll (fun depth s => if depth = 0 then scanOutside? s else scanInClass? depth s) 0 s with
  | some (tokens, 0) => some tokens
  | _ => none

end Pattern

end ApiPages
