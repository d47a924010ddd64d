import ApiPages.Text.Basic

/-! # Paths of files

A path is a text whose components are separated by slashes.  `directoryOf` and `join` work on the
text alone; the components `.` and `..` in the middle of a path are left to whoever reads it. -/

namespace ApiPages

namespace Path

def isAbsolute (path : Text) : Bool :=
  path.head? == some '/'

/-- Removes slashes and components `.` from the start of a reversed path, except for a component
that is the whole path. -/
def dropIdle : Text → Text
  | '/' :: rest => dropIdle rest
  | '.' :: '/' :: rest => dropIdle rest
  | s => s

/-- The directory of a file; empty for a file name alone. -/
def directoryOf (path : Text) : Text :=
  let before := (dropIdle (path.reverse.dropWhile (· != '/'))).reverse
  if before.isEmpty && isAbsolute path then ['/'] else before

/-- A path below a directory; an absolute path stays as it is. -/
def join (directory path : Text) : Text :=
  if isAbsolute path || directory.isEmpty then path
  else if directory.getLast? = some '/' then directory ++ path
  else directory ++ '/' :: path

end Path

end ApiPages
