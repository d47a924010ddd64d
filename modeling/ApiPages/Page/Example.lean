import ApiPages.Text.Basic

/-! # Example code

An example is shown as a fenced block of code.  Its `<code>` tags are removed, its lines are moved to
the left, and the language of the fence is guessed. -/

namespace ApiPages

namespace Example

/-- What is between the first `<code>` and the last `</code>`. -/
def dropCodeTags (s : Text) : Text :=
  if !Text.occurs "<code" s then s
  else
    let inner := (Text.cutLast? "</code>" s).elim s Prod.fst
    (Text.cutFirst? "<code>" inner).elim inner Prod.snd

/-- The indents that are removed, widest first. -/
def indents : List Nat := [7, 4, 3]

/-- A line feed with an indent after it. -/
def indented (width : Nat) : Text :=
  '\n' :: List.replicate width ' '

/-- Removes the widest indent that some line has from all lines that have it. -/
def dropIndent (s : Text) : Text :=
  match indents.find? fun width => Text.occurs (indented width) s with
  | some width => Text.replaceAll (indented width) ['\n'] s
  | none => s

/-- The language of some code. -/
def language (code : Text) : Text :=
  if Text.occurs "<?php" code then "php"
  else if Text.occurs "var " code && !Text.occurs "</" code then "js"
  else []

/-- The mark around a block of code. -/
def fence : Text := ['\x60', '\x60', '\x60']

/-- An example as a fenced block. -/
def render (s : Text) : Text :=
  let code := dropIndent (dropCodeTags s)
  fence ++ language code ++ '\n' :: Text.trim code ++ '\n' :: fence

end Example

end ApiPages
