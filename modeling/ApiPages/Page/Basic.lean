import ApiPages.Doc.Title
import ApiPages.Page.Table

/-! # The page of a class -/

namespace ApiPages

/-- What a page shows. -/
structure PageOptions where
  /-- Whether the rows of the table list references. -/
  includeSee : Bool := false
  appendExamples : Bool := true
  declareAbstract : Bool := true
  titleFormat : Text := ClassDoc.defaultTitleFormat
deriving DecidableEq, Repr

namespace Page

/-- The anchor and the title. -/
def top (c : ClassDoc) (o : PageOptions) : Text :=
  "<a name=\"".toList ++ c.anchor ++ "\"></a>\n### ".toList ++ c.title o.titleFormat ++
    "\n\n".toList

/-- The description and the deprecation. -/
def summary (c : ClassDoc) : Text :=
  (if c.description.isEmpty then [] else "> ".toList ++ c.description ++ "\n\n".toList) ++
    if c.deprecated then "> **DEPRECATED** ".toList ++ c.deprecationMessage ++ "\n\n".toList else []

/-- The parent and the interfaces. -/
def relations (c : ClassDoc) : Text :=
  let verb : Text := if c.isInterface then "This interface extends" else "This class implements"
  (c.parent.elim [] fun p => "*This class extends ".toList ++ p ++ "*\n\n".toList) ++
    if c.interfaces.isEmpty then []
    else '*' :: verb ++ ' ' :: Text.join ", " c.interfaces ++ "*\n\n".toList

/-- The table of the methods. -/
def table (c : ClassDoc) (o : PageOptions) : Table :=
  let empty : Table := { appendExamples := o.appendExamples, declareAbstract := o.declareAbstract }
  c.methods.foldl (fun t m => t.add o.includeSee m) empty.reopen

/-- The references of the class. -/
def seeAlso (c : ClassDoc) : Text :=
  if c.see.isEmpty then []
  else "\n###### See also\n\n".toList ++ c.see.flatMap fun s => "- ".toList ++ s ++ ['\n']

/-- The page of a class. -/
def render (c : ClassDoc) (o : PageOptions) : Text :=
  top c o ++ summary c ++ relations c ++ (table c o).render ++ '\n' :: seeAlso c

end Page

end ApiPages
