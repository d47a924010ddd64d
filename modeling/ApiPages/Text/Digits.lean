import ApiPages.Text.Basic

/-! # Digits

The values of digits, and of numbers and characters that are written with them. -/

namespace ApiPages

namespace Text

/-- The value of a decimal digit. -/
def digitValue (c : Char) : Nat :=
  c.toNat - '0'.toNat

/-- The value of a hexadecimal digit. -/
def hexValue? (c : Char) : Option Nat :=
  if c.isDigit then some (digitValue c)
  else if 'a' ≤ c ∧ c ≤ 'f' then some (c.toNat - 'a'.toNat + 10)
  else if 'A' ≤ c ∧ c ≤ 'F' then some (c.toNat - 'A'.toNat + 10)
  else none

/-- The number with the given digits, the first of them the most significant. -/
def ofDigits (base : Nat) (digits : List Nat) : Nat :=
  digits.foldl (fun n d => n * base + d) 0

/-- The value of a sequence of decimal digits. -/
def decimalValue (s : Text) : Nat :=
  ofDigits 10 (s.map digitValue)

/-- The value of a sequence of hexadecimal digits. -/
def hexNumber? (s : Text) : Option Nat :=
  (s.mapM hexValue?).map (ofDigits 16)

/-- The character of a number, if there is one. -/
def charOfNat? (n : Nat) : Option Char :=
  if n.isValidChar then some (Char.ofNat n) else none

/-- The character given by hexadecimal digits. -/
def charOfHex? (s : Text) : Option Char :=
  (hexNumber? s).bind charOfNat?

end Text

end ApiPages
