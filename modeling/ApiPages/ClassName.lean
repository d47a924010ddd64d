import ApiPages.Text.Basic

/-! # Class names

A class name is a path of segments separated by backslashes.  It is written in two normal forms:
the form shown to readers (`display`), with exactly one leading backslash, and the form by which
classes are looked up (`key`), without outer backslashes and in lower case, because class names are
case-insensitive.  `short` and `namespaceOf` take a name apart. -/

namespace ApiPages

namespace ClassName

/-- The characters that may surround a class name without being part of it. -/
def isOuter (c : Char) : Bool :=
  c == '\\' || Text.isBlank c

def isBackslash (c : Char) : Bool :=
  c == '\\'

/-- The form shown to readers: one leading backslash, no trailing one, no outer white space. -/
def display (name : Text) : Text :=
  '\\' :: Text.strip isOuter name

/-- The form by which classes are looked up. -/
def key (name : Text) : Text :=
  Text.lower (Text.strip isOuter name)

/-- The last segment of a name. -/
def short (name : Text) : Text :=
  ((Text.dropEndWhile isBackslash (Text.trim name)).splitOn '\\').getLastD []

/-- All segments but the last one; empty for a name in the global namespace. -/
def namespaceOf (name : Text) : Text :=
  Text.join ['\\'] ((Text.strip isBackslash (Text.trim name)).splitOn '\\').dropLast

end ClassName

end ApiPages
