import ApiPages.Doc.Basic
import ApiPages.Text.Lowercase

/-! # Titles of classes

A title is made from a format with the marks `%label%`, `%name%` and `%extra%`.  The anchor of a class
is its title in the default format, in lower case and without punctuation. -/

namespace ApiPages

namespace ClassDoc

def defaultTitleFormat : Text :=
  "%label%: %name% %extra%"

/-- What kind of class it is. -/
def label (c : ClassDoc) : Text :=
  if c.isInterface then "Interface" else "Class"

/-- The name in titles: a name in the global namespace has no backslash. -/
def titleName (c : ClassDoc) : Text :=
  if c.name.count '\\' = 1 then c.name.dropWhile ClassName.isBackslash else c.name

/-- What a title adds to the name: whether the class is abstract, and whether it is an interface if
the title has no label. -/
def extra (c : ClassDoc) (labelled : Bool) : Text :=
  if c.isInterface then if labelled then [] else "(interface)"
  else if c.isAbstract then "(abstract)"
  else []

/-- The title in a given format. -/
def title (c : ClassDoc) (format : Text) : Text :=
  let extra := c.extra (Text.occurs "%label%" format)
  let text := Text.replaceAll "%label%" c.label format
  let text := Text.replaceAll "%name%" c.titleName text
  Text.trim (Text.replaceAll "%extra%" extra text)

/-- The characters that an anchor leaves out. -/
def isPunctuation (c : Char) : Bool :=
  c == ':' || c == '\\' || c == '(' || c == ')'

/-- The anchor by which other pages refer to the class. -/
def anchor (c : ClassDoc) : Text :=
  let kept := (c.title defaultTitleFormat).filter (fun x => !isPunctuation x)
  Text.lowercase (kept.map fun x => if x = ' ' then '-' else x)

end ClassDoc

end ApiPages
