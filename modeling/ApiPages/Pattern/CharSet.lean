import ApiPages.Text.CaseFold
import ApiPages.Text.WordTable

/-! # Sets of characters in patterns -/

namespace ApiPages

namespace Pattern

/-- A set of characters, as patterns build them. -/
inductive CharSet where
  | none
  /-- The characters from `first` to `last`. -/
  | range (first last : Char)
  /-- The characters equal up to case to one from `first` to `last`. -/
  | caselessRange (first last : Char)
  | digit
  | word
  | space
  | union (a b : CharSet)
  | inter (a b : CharSet)
  | diff (a b : CharSet)
  | symmDiff (a b : CharSet)
  | compl (a : CharSet)
deriving DecidableEq, Repr

namespace CharSet

def isDigit (c : Char) : Bool :=
  Text.inRanges Text.digitRanges c.toNat

def isWord (c : Char) : Bool :=
  Text.inRanges Text.wordRanges c.toNat

/-- Whether a character belongs to a set. -/
def holds (c : Char) : CharSet → Bool
  | .none => false
  | .range first last => first ≤ c && c ≤ last
  | .caselessRange first last =>
    (Text.caseOrbit c).any fun n => first.toNat ≤ n && n ≤ last.toNat
  | .digit => isDigit c
  | .word => isWord c
  | .space => Text.isBlank c
  | .union a b => a.holds c || b.holds c
  | .inter a b => a.holds c && b.holds c
  | .diff a b => a.holds c && !b.holds c
  | .symmDiff a b => a.holds c != b.holds c
  | .compl a => !a.holds c

/-- The set of a single character. -/
def single (c : Char) : CharSet := .range c c

/-- All characters. -/
def all : CharSet := .compl .none

/-- All characters but the line feed. -/
def notNewline : CharSet := .compl (single '\n')

/-- The union of the sets of ranges. -/
def ofRanges (ranges : List (Char × Char)) : CharSet :=
  ranges.foldr (fun r s => .union (.range r.1 r.2) s) .none

/-- The same set without regard to case; only ranges are affected. -/
def caseless : CharSet → CharSet
  | .range first last => .caselessRange first last
  | .union a b => .union a.caseless b.caseless
  | .compl a => .compl a.caseless
  | s => s

/-- The ASCII classes by name. -/
def ascii? (name : Text) : Option CharSet :=
  (table.find? (·.1.toList == name)).map fun p => ofRanges p.2
where
  table : List (String × List (Char × Char)) :=
    [("alnum", [('0', '9'), ('A', 'Z'), ('a', 'z')]),
      ("alpha", [('A', 'Z'), ('a', 'z')]),
      ("ascii", [('\x00', '\x7f')]),
      ("blank", [('\t', '\t'), (' ', ' ')]),
      ("cntrl", [('\x00', '\x1f'), ('\x7f', '\x7f')]),
      ("digit", [('0', '9')]),
      ("graph", [('!', '~')]),
      ("lower", [('a', 'z')]),
      ("print", [(' ', '~')]),
      ("punct", [('!', '/'), (':', '@'), ('[', '\x60'), ('\x7b', '~')]),
      ("space", [('\t', '\r'), (' ', ' ')]),
      ("upper", [('A', 'Z')]),
      ("word", [('0', '9'), ('A', 'Z'), ('_', '_'), ('a', 'z')]),
      ("xdigit", [('0', '9'), ('A', 'F'), ('a', 'f')])]

end CharSet

end Pattern

end ApiPages
