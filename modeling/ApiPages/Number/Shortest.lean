import ApiPages.Number.Binary64

/-! # The shortest decimal of a binary number

`shortest` gives the decimal with the fewest digits that rounds to a given binary number, and among
those the one nearest to it.  `Binary64.render` writes that decimal positionally, without an exponent
and without a fraction of zero. -/

namespace ApiPages

/-- The decimal `digits * 10 ^ exponent`. -/
structure Decimal where
  digits : Nat
  exponent : Int
deriving DecidableEq, Repr

namespace Decimal

/-- The same decimal without trailing zeros among its digits. -/
def normalize (d : Decimal) : Decimal :=
  if h : d.digits ≠ 0 ∧ d.digits % 10 = 0 then normalize ⟨d.digits / 10, d.exponent + 1⟩ else d
termination_by d.digits
decreasing_by omega

/-- The decimal without an exponent. -/
def positional (d : Decimal) : Text :=
  let ds := Nat.toDigits 10 d.digits
  if 0 ≤ d.exponent then ds ++ List.replicate d.exponent.toNat '0'
  else
    let places := d.exponent.natAbs
    let padded := List.replicate (places + 1 - ds.length) '0' ++ ds
    let whole := padded.length - places
    padded.take whole ++ '.' :: padded.drop whole

end Decimal

namespace Binary64

/-- The numbers that round to a given one lie between `low / unit` and `high / unit`; the ends
belong to them if `closed`. -/
structure Interval where
  value : Nat
  low : Nat
  high : Nat
  unit : Nat
  closed : Bool

/-- The fractions that round to a positive number.  Below a power of two the numbers lie twice as
close. -/
def interval (x : Binary64) : Interval :=
  let m := x.mantissa
  let below := if m = Nat.pow 2 52 ∧ x.exponent > minExponent then 1 else 2
  let e := x.exponent - 2
  { value := shifted (4 * m) e
    low := shifted (4 * m - below) e
    high := shifted (4 * m + 2) e
    unit := shifted 1 (-e)
    closed := m % 2 = 0 }

/-- Whether the fraction `n / d` rounds to the number. -/
def Interval.holds (i : Interval) (n d : Nat) : Bool :=
  if i.closed then i.low * d ≤ n * i.unit && n * i.unit ≤ i.high * d
  else i.low * d < n * i.unit && n * i.unit < i.high * d

/-- The decimal with exponent `k` that is nearest among those in the interval; a tie goes up. -/
def Interval.onGrid? (i : Interval) (k : Int) : Option Decimal :=
  let up := Nat.pow 10 k.toNat
  let down := Nat.pow 10 (-k).toNat
  let n := i.value * down
  let d := i.unit * up
  let lo := n / d
  let hits := [lo + 1, lo].filter fun t => i.holds (t * up) down
  let hits := if 2 * (n % d) < d then hits.reverse else hits
  hits.head?.map fun t => ⟨t, k⟩

/-- The number of digits before the point of `n / d`, or less the number of zeros after it. -/
def leadingPlace (n d : Nat) : Int :=
  let estimate : Int := ((Nat.toDigits 10 n).length : Int) - ((Nat.toDigits 10 d).length : Int)
  if n * Nat.pow 10 (-estimate).toNat < d * Nat.pow 10 estimate.toNat then estimate else estimate + 1

/-- The decimal with the fewest digits that rounds to a positive number.  Seventeen digits always
suffice. -/
def shortest (x : Binary64) : Decimal :=
  let i := x.interval
  let place := leadingPlace i.value i.unit
  match (List.range 17).findSome? fun (n : Nat) => i.onGrid? (place - (n + 1 : Nat)) with
  | some d => d.normalize
  | none => ⟨x.numerator, 0⟩

/-- The shortest decimal text of a number, always positional. -/
def render (x : Binary64) : Text :=
  let text := if x.mantissa = 0 then ['0'] else x.shortest.positional
  if x.negative then '-' :: text else text

end Binary64

end ApiPages
