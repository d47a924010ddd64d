import ApiPages.ClassName

/-! # Unions of candidate types

A type is a text that lists candidates.  Readers may separate them by `|` or `/`; the library always
writes `/`.  `candidates` takes a type apart and `ofCandidates` puts it together without repeats;
`canonical` also qualifies every class name by a namespace and spells out nullable types. -/

namespace ApiPages

namespace TypeUnion

/-- The type names that never refer to a class. -/
def natives : List Text :=
  ["mixed", "string", "int", "float", "integer", "number", "bool", "boolean", "object", "false",
    "true", "null", "array", "void", "callable"]

def isSeparator (c : Char) : Bool :=
  c == '|' || c == '/'

def isBracket (c : Char) : Bool :=
  c == '[' || c == ']'

/-- Whether a name is that of a native type, up to case and outer backslashes. -/
def isNative (name : Text) : Bool :=
  natives.contains (Text.lower (Text.strip ClassName.isBackslash (Text.trim name)))

/-- Whether a candidate refers to a class, possibly as the element type of an array.  Variables and
texts with white space never do. -/
def isClassReference (name : Text) : Bool :=
  let s := Text.trim name
  let base := Text.dropEndWhile isBracket ((Text.lower s).dropWhile ClassName.isBackslash)
  !s.isEmpty && s.head? != some '$' && !s.any Text.isBlank && !base.isEmpty &&
    !natives.contains base

/-- The candidates of a type, in order. -/
def candidates (type : Text) : List Text :=
  ((type.splitOnP isSeparator).map Text.trim).filter (fun c => !c.isEmpty)

/-- The type with the candidates of all the given types, in order and without repeats. -/
def ofCandidates (types : List Text) : Text :=
  Text.join ['/'] (types.flatMap candidates).eraseDups

/-- Qualifies a single candidate: a class name that is not absolute lies in `ns`. -/
def qualify (ns name : Text) : Text :=
  let s := Text.trim name
  let ns := Text.strip ClassName.isBackslash ns
  if !isClassReference s then s
  else if s.head? = some '\\' ∨ ns.isEmpty then ClassName.display s
  else ClassName.display (ns ++ '\\' :: s)

/-- The qualified candidates that one candidate stands for: a nullable one also admits `null`. -/
def expand (ns candidate : Text) : List Text :=
  match candidate with
  | '?' :: inner => [qualify ns inner, "null"]
  | _ => [qualify ns candidate]

/-- The normal form of a type whose bare class names lie in `ns`. -/
def canonical (ns type : Text) : Text :=
  ofCandidates ((candidates type).flatMap (expand ns))

/-- Removes all trailing bracket pairs. -/
def elementType (candidate : Text) : Text :=
  (go candidate.reverse).reverse
where
  go : Text → Text
    | ']' :: '[' :: rest => go rest
    | s => s

end TypeUnion

end ApiPages
