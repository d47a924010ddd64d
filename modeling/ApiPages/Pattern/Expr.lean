import ApiPages.Pattern.CharSet

/-! # Regular expressions

Only one question is ever asked: does an expression match somewhere in a text (`Expr.occursIn`)?  It is
answered by the set of places at which a match can end (`Expr.ends`), so no choice has to be undone. -/

namespace ApiPages

namespace Pattern

/-- A condition on a place in a text. -/
inductive Look where
  | textStart
  | textEnd
  | lineStart
  | lineEnd
  | wordEdge
  | notWordEdge
  | wordStart
  | wordEnd
deriving DecidableEq, Repr

/-- A regular expression. -/
inductive Expr where
  | empty
  | char (set : CharSet)
  | look (condition : Look)
  | seq (a b : Expr)
  | alt (a b : Expr)
  /-- At least `least` times, and at most `most` times if that is given. -/
  | rep (e : Expr) (least : Nat) (most : Option Nat)
deriving DecidableEq, Repr

/-- A place in a text: the character before it and the text after it. -/
structure Place where
  before : Option Char
  rest : Text
deriving DecidableEq, Repr

/-- Whether a condition holds at a place. -/
def Look.holds (p : Place) : Look → Bool
  | .textStart => p.before.isNone
  | .textEnd => p.rest.isEmpty
  | .lineStart => p.before.all (· == '\n')
  | .lineEnd => p.rest.head?.all (· == '\n')
  | .wordEdge => p.before.any CharSet.isWord != p.rest.head?.any CharSet.isWord
  | .notWordEdge => p.before.any CharSet.isWord == p.rest.head?.any CharSet.isWord
  | .wordStart => !p.before.any CharSet.isWord && p.rest.head?.any CharSet.isWord
  | .wordEnd => p.before.any CharSet.isWord && !p.rest.head?.any CharSet.isWord

/-- The places reached by exactly `n` rounds. -/
def exactly (round : List Place → List Place) : Nat → List Place → List Place
  | 0, ps => ps
  | n + 1, ps => if ps.isEmpty then [] else exactly round n (round ps)

/-- The places reached by at most `n` rounds. -/
def atMost (round : List Place → List Place) : Nat → List Place → List Place
  | 0, ps => ps
  | n + 1, ps => if ps.isEmpty then [] else (ps ++ atMost round n (round ps)).eraseDups

/-- The places at which a match that starts at a given place can end.  More rounds than there are
places reach nothing new. -/
def Expr.ends (p : Place) : Expr → List Place
  | .empty => [p]
  | .char set =>
    match p.rest with
    | c :: rest => if set.holds c then [⟨some c, rest⟩] else []
    | [] => []
  | .look l => if l.holds p then [p] else []
  | .seq a b => ((a.ends p).flatMap fun q => b.ends q).eraseDups
  | .alt a b => (a.ends p ++ b.ends p).eraseDups
  | .rep e least most =>
    let places := p.rest.length + 1
    let round := fun ps => (ps.flatMap fun q => e.ends q).eraseDups
    let optional := most.elim places fun n => min (n - least) places
    atMost round optional (exactly round (min least places) [p])

/-- All places of a text, given the character before it. -/
def places (before : Option Char) : Text → List Place
  | [] => [⟨before, []⟩]
  | c :: cs => ⟨before, c :: cs⟩ :: places (some c) cs

/-- Whether an expression matches somewhere in a text. -/
def Expr.occursIn (e : Expr) (s : Text) : Bool :=
  (places none s).any fun p => !(e.ends p).isEmpty

end Pattern

end ApiPages
