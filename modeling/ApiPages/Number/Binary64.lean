import ApiPages.Text.Basic

/-! # Binary floating point numbers

A finite number of 64 bits is a sign, a mantissa below `2 ^ 53` and a power of two.  `ofRatio?`
rounds a fraction to the nearest such number in exact arithmetic, ties going to the even mantissa;
products and quotients are rounded once, from their exact value. -/

namespace ApiPages

/-- The number `± mantissa * 2 ^ exponent`. -/
structure Binary64 where
  negative : Bool
  mantissa : Nat
  exponent : Int
deriving DecidableEq, Repr

namespace Binary64

/-- The least exponent. -/
def minExponent : Int := -1074

/-- The greatest exponent of a finite number. -/
def maxExponent : Int := 971

def zero : Binary64 := ⟨false, 0, minExponent⟩

/-- The numerator of `n * 2 ^ e`. -/
def shifted (n : Nat) (e : Int) : Nat :=
  n * Nat.pow 2 e.toNat

/-- The quotient rounded to the nearest integer, ties to the even one. -/
def roundDiv (n d : Nat) : Nat :=
  let q := n / d
  let r := n % d
  if 2 * r > d ∨ (2 * r = d ∧ q % 2 = 1) then q + 1 else q

/-- The exponent for which `n / d` has a mantissa of 53 bits, but no less than the least one. -/
def exponentFor (n d : Nat) : Int :=
  let e : Int := (n.log2 : Int) - (d.log2 : Int) - 52
  let e := if shifted n (-e) < Nat.pow 2 52 * shifted d e then e - 1 else e
  max e minExponent

/-- The number nearest to `n / d` for positive `d`; none beyond the finite range. -/
def ofRatio? (n d : Nat) : Option Binary64 :=
  if n = 0 then some zero
  else
    let e := exponentFor n d
    let m := roundDiv (shifted n (-e)) (shifted d e)
    let (m, e) := if m = Nat.pow 2 53 then (Nat.pow 2 52, e + 1) else (m, e)
    if e > maxExponent then none else some ⟨false, m, e⟩

/-- The numerator of the absolute value. -/
def numerator (x : Binary64) : Nat :=
  shifted x.mantissa x.exponent

/-- The denominator of the absolute value. -/
def denominator (x : Binary64) : Nat :=
  shifted 1 (-x.exponent)

/-- The product of the absolute values. -/
def mul? (x y : Binary64) : Option Binary64 :=
  ofRatio? (x.numerator * y.numerator) (x.denominator * y.denominator)

/-- The quotient of the absolute values for `y ≠ 0`. -/
def div? (x y : Binary64) : Option Binary64 :=
  ofRatio? (x.numerator * y.denominator) (x.denominator * y.numerator)

/-- The number nearest to a power of ten. -/
def powerOfTen? (k : Nat) : Option Binary64 :=
  ofRatio? (Nat.pow 10 k) 1

/-- The greatest power of ten among the finite numbers. -/
def maxTenExponent : Nat := 308

/-- Divides by the greatest power of ten `steps` times, stopping at zero. -/
def divTens? : (steps : Nat) → Binary64 → Option Binary64
  | 0, x => some x
  | steps + 1, x =>
    if x.mantissa = 0 then some x
    else ((powerOfTen? maxTenExponent).bind x.div?).bind (divTens? steps)

/-- `x * 10 ^ k`, by one rounded multiplication or by rounded divisions of at most `10 ^ 308`
each; none beyond the finite range. -/
def scaleTen? (x : Binary64) (k : Int) : Option Binary64 :=
  let n := k.natAbs
  if 0 ≤ k then
    if n ≤ maxTenExponent then (powerOfTen? n).bind x.mul?
    else if x.mantissa = 0 then some x else none
  else
    let steps := (n - 1) / maxTenExponent
    (divTens? steps x).bind fun y => (powerOfTen? (n - steps * maxTenExponent)).bind y.div?

end Binary64

end ApiPages
