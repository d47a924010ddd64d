import ApiPages.CommandLine.Args
import ApiPages.Decl.Json
import ApiPages.Pattern.Basic
import ApiPages.Toml.Settings

/-! # The program and its readers

The program reads documents as JSON, settings as TOML and patterns as regular expressions.  What the library
does with any readers is given here for those of the program. -/

namespace ApiPages

/-- The readers of the program. -/
def Readers.program : Readers where
  arguments := Invocation.ofArgs?
  documents := ClassDecl.listOfText?
  settings := Settings.ofToml?
  patterns := Pattern.ofText?

namespace ClassIndex

/-- The index with the classes of a document, and their number.  `classes` is none if the document is
malformed. -/
def load (ix : ClassIndex) (classes : Option (List ClassDecl)) : Except LoadError (ClassIndex × Nat) :=
  (IndexM.load classes).toExcept ix

/-- The index with the classes of a document in a file, and their number. -/
def loadFile (files : FileTree) (ix : ClassIndex) (path : Text) : Except LoadError (ClassIndex × Nat) :=
  (Readers.program.documents.loadFile files path).toExcept ix

end ClassIndex

namespace Settings

/-- The settings that a text holds. -/
def ofText (s : Text) : Except SettingsError Settings :=
  Readers.program.settings.ofText s

/-- Loads the settings from a chosen file, which must exist, or else from the first file found. -/
def load (files : FileTree) (configDirectory : Text) (chosen : Option Text) :
    Except SettingsError Settings :=
  Readers.program.settings.load files configDirectory chosen

/-- The filter for methods, unless the pattern is not valid. -/
def memberFilter? (s : Settings) : Option MemberFilter :=
  Readers.program.patterns.memberFilter? s

end Settings

/-- Runs the program. -/
def runArgs (args : List Text) (files : FileTree) (configDirectory : Text) : Outcome :=
  Readers.program.runArgs args files configDirectory

end ApiPages
