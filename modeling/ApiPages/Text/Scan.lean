import ApiPages.Text.Basic

/-! # Cutting a text into tokens

`scanAll` applies a step again and again until the text is used up.  The step takes a token from the
head of the text and may change a state; one that takes nothing ends the scan without a result, so
that the scan always ends. -/

namespace ApiPages

namespace Text

/-- The tokens of a text and the state after the last one. -/
def scanAll (step : σ → Text → Option (α × σ × Text)) (state : σ) (s : Text) :
    Option (List α × σ) :=
  if s.isEmpty then some ([], state)
  else
    match step state s with
    | none => none
    | some (token, next, rest) =>
      if rest.length < s.length then
        (scanAll step next rest).map fun (tokens, last) => (token :: tokens, last)
      else none
termination_by s.length

/-- The longest run at the head whose characters satisfy `p`, and the rest. -/
def takeRun (p : Char → Bool) (s : Text) : Text × Text :=
  (s.takeWhile p, s.dropWhile p)

end Text

end ApiPages
