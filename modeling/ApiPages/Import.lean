import ApiPages.ClassName

/-! # Class imports of a source text

A source text is not parsed: its `use` statements are found by a scan (`useChunks`).  A keyword
stands alone if no identifier character precedes it and white space follows it; its statement ends
at the next `;` or at the next keyword.  `Import.ofSource` reads plain, aliased, listed and grouped
imports and skips everything that does not name classes. -/

namespace ApiPages

/-- An imported class. -/
structure Import where
  /-- The display form of the imported class. -/
  path : Text
  /-- The name given to the class by `as`, if any. -/
  aliasName : Option Text
deriving DecidableEq, Repr

namespace Import

/-- The name by which the source refers to the imported class. -/
def localName (i : Import) : Text :=
  i.aliasName.getD (ClassName.short i.path)

/-- The first import with the given local name, up to letter case. -/
def find? (imports : List Import) (name : Text) : Option Import :=
  let name := name.dropWhile ClassName.isBackslash
  imports.find? fun i => Text.sameLetters i.localName name

/-! ### The scan -/

/-- The characters of identifiers, variables and class paths. -/
def isIdentifierChar (c : Char) : Bool :=
  c.isAlphanum || c == '_' || c == '$' || c == '\\'

/-- Whether the keyword `use` stands at the head of `s`, with `prev` right before it. -/
def keywordAt (prev : Option Char) (s : Text) : Bool :=
  !prev.any isIdentifierChar &&
    match s with
    | 'u' :: 's' :: 'e' :: next :: _ => Text.isAsciiBlank next
    | _ => false

/-- Cuts a text at its keywords: the text before the first one, and the text after each of them. -/
def cutAtUse (prev : Option Char) : Text → Text × List Text
  | [] => ([], [])
  | c :: cs =>
    let (head, chunks) := cutAtUse (some c) cs
    if keywordAt prev (c :: cs) then ([], head.drop 2 :: chunks) else (c :: head, chunks)

/-- The text after each keyword, up to the next one. -/
def useChunks (source : Text) : List Text :=
  (cutAtUse none source).2

/-! ### Statements -/

/-- Whether a statement or item imports functions or constants instead of classes. -/
def skipsClasses (s : Text) : Bool :=
  match Text.words s with
  | [] => false
  | first :: _ => Text.sameLetters first "function" || Text.sameLetters first "const"

/-- Whether a word can be the path of a class. -/
def isPath (word : Text) : Bool :=
  word.all fun c => isIdentifierChar c && c != '$'

/-- Reads one imported class with its alias. -/
def ofItem? (item : Text) : Option Import :=
  match Text.words item with
  | [path] => if isPath path then some ⟨ClassName.display path, none⟩ else none
  | [path, keyword, name] =>
    if Text.sameLetters keyword "as" && isPath path && name.all isIdentifierChar then
      some ⟨ClassName.display path, some name⟩
    else none
  | _ => none

/-- Places an item of a group below the path of the group. -/
def under (group : Text) (i : Import) : Import :=
  { i with path := ClassName.display (group ++ '\\' :: i.path.dropWhile ClassName.isBackslash) }

/-- The path of a group, given the text before its opening brace. -/
def groupPath (before : Text) : Text :=
  Text.dropEndWhile ClassName.isBackslash (Text.trim before)

/-- The text between the braces of a group, given the texts before and after the opening brace. -/
def groupBody? (before after : Text) : Option Text :=
  match Text.cutLast? ['}'] after with
  | some (body, _) => some body
  | none => if before.contains '}' then none else some after

/-- The imports of a statement, given without its keyword and its semicolon. -/
def ofStatement (s : Text) : List Import :=
  if skipsClasses s then []
  else
    match Text.cutFirst? ['{'] s with
    | none => (s.splitOn ',').filterMap ofItem?
    | some (before, after) =>
      match groupBody? before after with
      | none => []
      | some body =>
        ((body.splitOn ',').filter (fun item => !skipsClasses item)).filterMap fun item =>
          (ofItem? item).map (under (groupPath before))

/-- The class imports of a source text, in order. -/
def ofSource (source : Text) : List Import :=
  (useChunks source).flatMap fun chunk => ofStatement (Text.trim (chunk.takeWhile (· != ';')))

end Import

end ApiPages
