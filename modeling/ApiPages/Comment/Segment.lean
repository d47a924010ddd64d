import ApiPages.Text.Basic

/-! # Comment segments

A doc comment is cleaned of its delimiters and line markers (`clean`) and then cut into segments
(`Segment.ofText`): the description first, then one segment for each line that opens a tag, with
the lines that follow it. -/

namespace ApiPages

/-- A tag with the lines that belong to it. -/
structure Segment where
  /-- The tag's name without its `@`, or `description` for the text before the first tag. -/
  tag : Text
  /-- The words after the tag on its own line. -/
  head : List Text
  /-- The continuation lines, trimmed unless the segment is an example. -/
  lines : List Text
deriving DecidableEq, Repr

namespace Comment

/-! ### Cleaning -/

/-- Removes the star that marks a comment line, with one space or tab after it. -/
def dropMarker (line : Text) : Text :=
  match line.dropWhile Text.isBlank with
  | '*' :: rest =>
    match rest.dropWhile (· == '*') with
    | c :: body => if c = ' ' ∨ c = '\t' then body else c :: body
    | [] => []
  | _ => line

/-- Removes the opening delimiter of a comment. -/
def dropOpening (s : Text) : Text :=
  match s with
  | '/' :: '*' :: '*' :: rest => rest
  | '/' :: '*' :: rest => rest
  | _ => s

/-- Removes the closing delimiter of a comment. -/
def dropClosing (s : Text) : Text :=
  (Text.dropSuffix? ['*', '/'] s).getD s

/-- The text of a comment without delimiters and line markers. -/
def clean (raw : Text) : Text :=
  Text.join ['\n'] ((Text.lines (dropClosing (dropOpening (Text.trim raw)))).map dropMarker)

end Comment

namespace Segment

/-- The tag of the text before the first tag line. -/
def descriptionTag : Text := "description"

/-- The tag whose continuation lines keep their layout. -/
def exampleTag : Text := "example"

/-- Whether the continuation lines are kept as they are. -/
def isVerbatim (s : Segment) : Bool :=
  s.tag == exampleTag

/-- The words of the segment: those of the tag's line, then those of the other lines. -/
def words (s : Segment) : List Text :=
  s.head ++ s.lines.flatMap Text.words

/-- The text of the segment: an example keeps its lines, any other segment is one line. -/
def text (s : Segment) : Text :=
  let sep := if s.isVerbatim then '\n' else ' '
  Text.trim (Text.unwords s.head ++ s.lines.flatMap (sep :: ·))

/-- Adds a continuation line. -/
def push (s : Segment) (line : Text) : Segment :=
  { s with lines := s.lines ++ [if s.isVerbatim then line else Text.trim line] }

/-! ### Cutting a text into segments -/

/-- The segments of `rows`, where `current` is the segment that is still open.  Blank lines are
skipped, and a line whose first word starts with `@` opens the next segment. -/
def collect (current : Segment) : List Text → List Segment
  | [] => [current]
  | row :: rows =>
    match Text.words row with
    | [] => collect current rows
    | ('@' :: tag) :: head => current :: collect ⟨tag, head, []⟩ rows
    | _ => collect (current.push row) rows

/-- The segments of a cleaned comment; the first one is the description. -/
def ofText (s : Text) : List Segment :=
  collect ⟨descriptionTag, [], []⟩ (Text.lines s)

end Segment

end ApiPages
