import ApiPages.Doc.Json
import ApiPages.Page.Example

/-! # Tables of methods

A table has one row for each method, and the examples of the methods can be added below it.  It is
filled step by step; opening it again forgets its rows and examples. -/

namespace ApiPages

/-- A table under construction. -/
structure Table where
  /-- The lines so far. -/
  lines : List Text := []
  /-- The class of the last method added. -/
  className : Text := []
  /-- The methods with examples, in the order in which they first had one. -/
  examples : List (Text × Text) := []
  /-- Whether the examples are added below the table. -/
  appendExamples : Bool := true
  /-- Whether abstract methods are marked. -/
  declareAbstract : Bool := true
deriving DecidableEq, Repr

namespace Table

/-! ### Rows -/

def tag (name : String) (content : Text) : Text :=
  '<' :: name.toList ++ '>' :: content ++ "</".toList ++ name.toList ++ ['>']

/-- A parameter with its type and default value. -/
def paramCell (p : ParamDoc) : Text :=
  tag "em" p.type ++ ' ' :: tag "strong" (p.name ++ p.default.elim [] ('=' :: ·))

/-- The parameters in the middle of a signature. -/
def paramsCell (ps : List ParamDoc) : Text :=
  if ps.isEmpty then [] else "</strong>".toList ++ Text.join ", " (ps.map paramCell)

/-- The name of a method with its parameters and its return type. -/
def signature (declareAbstract : Bool) (m : MethodDoc) : Text :=
  let mark : Text := if declareAbstract && m.isAbstract then "abstract " else []
  "<strong>".toList ++ mark ++ m.name ++ '(' :: paramsCell m.params ++ ")</strong> : ".toList ++
    tag "em" m.returnType

/-- The signature followed by its deprecation or its description. -/
def described (signature : Text) (m : MethodDoc) : Text :=
  if m.deprecated then
    tag "strike" signature ++ "<br />".toList ++
      tag "em" ("DEPRECATED - ".toList ++ m.deprecationMessage)
  else if m.description.isEmpty then signature
  else signature ++ "<br />".toList ++ tag "em" m.description

/-- The references of a method. -/
def references (m : MethodDoc) : Text :=
  "<br />".toList ++
    tag "em" ("&nbsp;&nbsp;&nbsp;&nbsp;See: ".toList ++ Text.join ", " m.see)

/-- Removes tags that close and open again at once. -/
def tidy (cell : Text) : Text :=
  Text.replaceAll "</strong></strong> " "</strong>"
    (Text.replaceAll "</strong><strong>" [] (Text.trim cell))

/-- The second cell of a row. -/
def cell (declareAbstract includeSee : Bool) (m : MethodDoc) : Text :=
  let text := described (signature declareAbstract m) m
  tidy (if includeSee && !m.see.isEmpty then text ++ references m else text)

/-- The row of a method. -/
def row (declareAbstract includeSee : Bool) (m : MethodDoc) : Text :=
  let access : Text := m.access.text ++ if m.isStatic then " static".toList else []
  "| ".toList ++ access ++ " | ".toList ++ cell declareAbstract includeSee m ++ " |".toList

/-! ### Steps -/

/-- Adds an example; another one of the same method is replaced where it stands. -/
def upsertExample (method code : Text) (examples : List (Text × Text)) : List (Text × Text) :=
  upsertBy Prod.fst (method, code) examples

/-- The heading of a table. -/
def heading : List Text :=
  ["| Visibility | Function |", "|:-----------|:---------|"]

/-- Starts the table anew. -/
def reopen (t : Table) : Table :=
  { t with lines := heading, examples := [] }

/-- The row that a method gets. -/
def rowOf (t : Table) (includeSee : Bool) (m : MethodDoc) : Text :=
  row t.declareAbstract includeSee m

/-- Adds the row and the example of a method. -/
def add (t : Table) (includeSee : Bool) (m : MethodDoc) : Table :=
  { t with
    lines := t.lines ++ [t.rowOf includeSee m]
    className := m.className
    examples :=
      if m.exampleText.isEmpty then t.examples
      else upsertExample m.name m.exampleText t.examples }

/-- The heading and the block of an example. -/
def renderExample (className : Text) (e : Text × Text) : Text :=
  "\n###### Examples of ".toList ++ ClassName.short className ++ "::".toList ++ e.1 ++
    "()\n".toList ++ Example.render e.2

/-- The text of the table. -/
def render (t : Table) : Text :=
  Text.trim (t.lines.flatMap (· ++ ['\n'])) ++
    if t.appendExamples then t.examples.flatMap (renderExample t.className) else []

end Table

end ApiPages
