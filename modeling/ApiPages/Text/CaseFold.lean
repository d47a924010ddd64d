import ApiPages.Text.Lowercase

/-! # Characters that are equal up to case -/

namespace ApiPages

namespace Text

/-- The common representative of the characters that are equal up to case. -/
def foldChar (c : Char) : Char :=
  let low := lowerChar c
  ((foldedPairs.find? (·.1 == low.toNat)).map fun p => Char.ofNat p.2).getD low

/-- The numbers of the characters equal to `c` up to case. -/
def caseOrbit (c : Char) : List Nat :=
  let rep := (foldChar c).toNat
  let upper := lowerRuns.filterMap fun r =>
    let n := ((rep : Int) - r.distance).toNat
    if r.holds n then some n else none
  rep :: upper ++ (foldedPairs.filter (·.2 == rep)).map Prod.fst

end Text

end ApiPages
