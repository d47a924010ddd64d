import ApiPages.ClassIndex.Builtins
import ApiPages.Files.Basic

/-! # Loading documents into an index

Loading is work on an index (`IndexM`).  It may fail, and an index is left behind in either case.  How the
classes of a document are read from its text is left open (`DocumentReader`). -/

namespace ApiPages

/-- Why a document cannot be loaded. -/
inductive LoadError where
  | unreadable (path : Text) (fault : ReadFault)
  | malformed
deriving DecidableEq, Repr

/-- The text for a file that cannot be read. -/
def ReadFault.describe (path : Text) (fault : ReadFault) : Text :=
  "failed to read ".toList ++ path ++ ": ".toList ++ fault.message

/-- The class with its file placed below a directory. -/
def ClassDecl.below (directory : Text) (c : ClassDecl) : ClassDecl :=
  { c with file := c.file.map (Path.join directory) }

/-- Work on an index: it may fail, and it leaves an index behind in either case. -/
abbrev IndexM := ExceptT LoadError (StateM ClassIndex)

namespace IndexM

/-- The result of the work on an index, and the index after it. -/
def runOn (x : IndexM α) (ix : ClassIndex) : Except LoadError α × ClassIndex :=
  x.run.run ix

/-- The index after the work together with its result, unless the work fails. -/
def toExcept (x : IndexM α) (ix : ClassIndex) : Except LoadError (ClassIndex × α) :=
  match x.runOn ix with
  | (.ok a, ix) => .ok (ix, a)
  | (.error e, _) => .error e

/-- Adds a class. -/
def insert (c : ClassDecl) : IndexM Unit :=
  modify (·.insert c)

/-- Adds the classes of a document one after the other, and counts them.  `classes` is none if the
document is malformed. -/
def load (classes : Option (List ClassDecl)) : IndexM Nat := do
  match classes with
  | none => throw .malformed
  | some cs =>
    cs.forM insert
    pure cs.length

end IndexM

/-- Reads the classes of a document from its text, unless it is malformed. -/
def DocumentReader := Text → Option (List ClassDecl)

namespace DocumentReader

/-- Adds the classes of a document given as text, and counts them. -/
def loadText (read : DocumentReader) (text : Text) : IndexM Nat :=
  IndexM.load (read text)

/-- Adds the classes of a document in a file, and counts them.  Relative paths of source files start
from the directory of the document. -/
def loadFile (read : DocumentReader) (files : FileTree) (path : Text) : IndexM Nat := do
  match files.read path with
  | .error fault => throw (.unreadable path fault)
  | .ok text => IndexM.load ((read text).map (List.map (ClassDecl.below (Path.directoryOf path))))

end DocumentReader

end ApiPages
