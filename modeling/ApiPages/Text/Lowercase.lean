import ApiPages.Text.Basic
import ApiPages.Text.CaseTable

/-! # Full lowercasing

`lowercase` replaces every character by its lower case.  The capital sigma becomes a final sigma at
the end of a word, and the dotted capital I becomes two characters. -/

namespace ApiPages

namespace Text

/-- Whether a number lies in one of the ranges. -/
def inRanges (ranges : List (Nat × Nat)) (n : Nat) : Bool :=
  ranges.any fun (first, last) => first ≤ n && n ≤ last

def isCased (c : Char) : Bool :=
  inRanges casedRanges c.toNat

def isCaseIgnorable (c : Char) : Bool :=
  inRanges caseIgnorableRanges c.toNat

/-- Whether a run holds the character with a given number. -/
def CaseRun.holds (r : CaseRun) (n : Nat) : Bool :=
  r.first ≤ n && n ≤ r.last && (n - r.first) % r.stride == 0

/-- The lower case of a character that has one of a single character. -/
def lowerChar (c : Char) : Char :=
  match lowerRuns.find? (·.holds c.toNat) with
  | some r => Char.ofNat (c.toNat + r.distance).toNat
  | none => c

/-- Whether a cased letter comes first, after characters that are ignored between letters. -/
def reachesCased (s : Text) : Bool :=
  (s.dropWhile isCaseIgnorable).head?.any isCased

/-- The lower case of a character between the reversed text before it and the text after it. -/
def lowerAt (before : Text) (c : Char) (after : Text) : Text :=
  if c = 'Σ' then if reachesCased before && !reachesCased after then ['ς'] else ['σ']
  else if c = 'İ' then ['i', '\u0307']
  else [lowerChar c]

/-- Lowers a text, where `before` is the reversed text before it. -/
def lowercaseFrom (before : Text) : Text → Text
  | [] => []
  | c :: cs => lowerAt before c cs ++ lowercaseFrom (c :: before) cs

/-- The lower case of a text. -/
def lowercase (s : Text) : Text :=
  lowercaseFrom [] s

end Text

end ApiPages
