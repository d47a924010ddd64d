import ApiPages.Json.Basic

/-! # Writing JSON

`Json.compact` writes a value without white space, `Json.pretty` with one item a line and an indent
of two spaces for each level. -/

namespace ApiPages

namespace Json

/-- A number as written. -/
def Number.render (n : Number) : Text :=
  let sign : Text := if n.negative then ['-'] else []
  let fraction := n.fraction.elim [] ('.' :: ·)
  let exponent := n.exponent.elim [] fun (negative, ds) =>
    'e' :: (if negative then ['-'] else []) ++ ds
  sign ++ n.whole ++ fraction ++ exponent

/-- A string literal with its quotes. -/
def quote (literal : Text) : Text :=
  '"' :: literal ++ ['"']

/-- The text of a value that is neither an array nor an object. -/
def renderLeaf : Json → Text
  | .null => "null"
  | .bool true => "true"
  | .bool false => "false"
  | .number n => n.render
  | .string s => quote s
  | .array _ => "[]"
  | .object _ => "\x7b\x7d"

/-- The items in brackets, each on a line of its own below an indent. -/
def block (indent : Nat) (left right : Char) (items : List Text) : Text :=
  let line (n : Nat) : Text := '\n' :: List.replicate n ' '
  left :: Text.join [','] (items.map fun item => line (indent + 2) ++ item) ++
    line indent ++ [right]

mutual

/-- The value without white space. -/
def compact : Json → Text
  | .array items => '[' :: Text.join [','] (compactItems items) ++ [']']
  | .object fields => '{' :: Text.join [','] (compactFields fields) ++ ['}']
  | v => renderLeaf v

def compactItems : List Json → List Text
  | [] => []
  | v :: vs => compact v :: compactItems vs

def compactFields : List (Text × Json) → List Text
  | [] => []
  | (name, v) :: fields => (quote name ++ ':' :: compact v) :: compactFields fields

end

mutual

/-- The value with one item a line, where `indent` is the indent of its first line. -/
def prettyAt (indent : Nat) : Json → Text
  | .array (v :: vs) => block indent '[' ']' (prettyItems (indent + 2) (v :: vs))
  | .object (f :: fs) => block indent '{' '}' (prettyFields (indent + 2) (f :: fs))
  | v => renderLeaf v

def prettyItems (indent : Nat) : List Json → List Text
  | [] => []
  | v :: vs => prettyAt indent v :: prettyItems indent vs

def prettyFields (indent : Nat) : List (Text × Json) → List Text
  | [] => []
  | (name, v) :: fields =>
    (quote name ++ ':' :: ' ' :: prettyAt indent v) :: prettyFields indent fields

end

/-- The value with one item a line. -/
def pretty (v : Json) : Text :=
  prettyAt 0 v

end Json

end ApiPages
