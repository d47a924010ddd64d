/-! # Text as a list of characters

All text of this library is a list of Unicode scalar values, so that every operation on it is a
plain recursion on lists.  This module holds the vocabulary: white space (`isBlank`), trimming
(`trim`, `strip`), cutting into words, lines and pieces (`words`, `lines`, `cutFirst?`), search and
replacement (`occurs`, `replaceAll`), and comparison up to ASCII letter case (`lower`,
`sameLetters`).  Texts are also the keys of lists that hold one item for each of them (`upsertBy`). -/

namespace ApiPages

/-- A text: its Unicode scalar values in order.  Texts compare by scalar value, which is also the
order of their UTF-8 bytes. -/
abbrev Text := List Char

instance : Coe String Text := ⟨String.toList⟩

namespace Text

/-- Whether a text is in a list is found by comparing. -/
instance decidableMem (s : Text) (ts : List Text) : Decidable (s ∈ ts) := inferInstance

/-! ### White space -/

/-- The Unicode property `White_Space`. -/
def isBlank (c : Char) : Bool :=
  let n := c.toNat
  (9 ≤ n && n ≤ 13) || n == 0x20 || n == 0x85 || n == 0xA0 || n == 0x1680 ||
    (0x2000 ≤ n && n ≤ 0x200A) || n == 0x2028 || n == 0x2029 || n == 0x202F || n == 0x205F ||
    n == 0x3000

/-- ASCII white space: space, tab, line feed, form feed and carriage return. -/
def isAsciiBlank (c : Char) : Bool :=
  c == ' ' || c == '\t' || c == '\n' || c == '\x0c' || c == '\r'

/-! ### Trimming -/

/-- Removes the longest run at the end whose characters all satisfy `p`. -/
def dropEndWhile (p : Char → Bool) (s : Text) : Text :=
  (s.reverse.dropWhile p).reverse

/-- Removes the characters satisfying `p` from both ends. -/
def strip (p : Char → Bool) (s : Text) : Text :=
  dropEndWhile p (s.dropWhile p)

/-- Removes white space from both ends. -/
def trim (s : Text) : Text :=
  strip isBlank s

/-- What follows `lead`, if `s` starts with it. -/
def dropPrefix? : (lead s : Text) → Option Text
  | [], s => some s
  | _ :: _, [] => none
  | p :: ps, c :: cs => if p = c then dropPrefix? ps cs else none

/-- What precedes `tail`, if `s` ends with it. -/
def dropSuffix? (tail s : Text) : Option Text :=
  (dropPrefix? tail.reverse s.reverse).map List.reverse

/-- Whether `s` starts with `lead`. -/
def startsWith (s lead : Text) : Bool :=
  lead.isPrefixOf s

/-- Whether `s` ends with `tail`. -/
def endsWith (s tail : Text) : Bool :=
  tail.isSuffixOf s

/-! ### Pieces -/

/-- The pieces joined with `sep` between neighbours. -/
def join (sep : Text) (pieces : List Text) : Text :=
  sep.intercalate pieces

/-- The maximal runs of characters that are not white space. -/
def words (s : Text) : List Text :=
  (s.splitOnP isBlank).filter (fun w => !w.isEmpty)

/-- The words joined with single spaces. -/
def unwords (ws : List Text) : Text :=
  join [' '] ws

/-- Removes one carriage return from the end, if there is one. -/
def dropReturn (s : Text) : Text :=
  (dropSuffix? ['\r'] s).getD s

/-- The lines of a text.  A line feed ends a line together with a carriage return right before it;
text after the last line feed is a line of its own unless it is empty. -/
def lines (s : Text) : List Text :=
  let rows := s.splitOn '\n'
  rows.dropLast.map dropReturn ++ rows.getLast?.toList.filter (fun r => !r.isEmpty)

/-- The text before and after the first occurrence of `mark`. -/
def cutFirst? (mark : Text) : Text → Option (Text × Text)
  | [] => if mark.isEmpty then some ([], []) else none
  | c :: cs =>
    match dropPrefix? mark (c :: cs) with
    | some rest => some ([], rest)
    | none => (cutFirst? mark cs).map fun (before, after) => (c :: before, after)

/-- The text before and after the last occurrence of `mark`. -/
def cutLast? (mark s : Text) : Option (Text × Text) :=
  (cutFirst? mark.reverse s.reverse).map fun (after, before) => (before.reverse, after.reverse)

/-! ### Search and replacement -/

/-- Whether `mark` occurs in the text. -/
def occurs (mark : Text) : Text → Bool
  | [] => mark.isEmpty
  | c :: cs => mark.isPrefixOf (c :: cs) || occurs mark cs

/-- Replaces the non-overlapping occurrences of the non-empty text `mark`, found from the left. -/
def replaceAll (mark new : Text) : Text → Text
  | [] => []
  | c :: cs =>
    if mark.isPrefixOf (c :: cs) then new ++ replaceAll mark new (cs.drop (mark.length - 1))
    else c :: replaceAll mark new cs
termination_by s => s.length
decreasing_by all_goals simp only [List.length_drop, List.length_cons]; omega

/-! ### Letter case -/

/-- Lowers the ASCII letters and leaves all other characters alone. -/
def lower (s : Text) : Text :=
  s.map Char.toLower

/-- Whether two texts are equal up to the case of ASCII letters. -/
def sameLetters (s t : Text) : Bool :=
  lower s == lower t

/-- The order of texts by scalar values. -/
def le : (s t : Text) → Bool
  | [], _ => true
  | _ :: _, [] => false
  | c :: s, d :: t => if c = d then le s t else c.toNat < d.toNat

end Text

/-- Adds an item to a list; the first item with the same key is replaced where it stands. -/
def upsertBy {α κ : Type} [DecidableEq κ] (key : α → κ) (a : α) : List α → List α
  | [] => [a]
  | b :: bs => if key b = key a then a :: bs else b :: upsertBy key a bs

end ApiPages
