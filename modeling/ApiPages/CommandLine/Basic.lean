import ApiPages.ClassIndex.Load
import ApiPages.Doc.Json
import ApiPages.Documenter.Session
import ApiPages.Json.Printer
import ApiPages.Settings

/-! # Invocations and how they run

Everything that a run prints is computed from its arguments and the files that it reads.  How arguments,
documents, settings and patterns are read from texts is left open (`Readers`). -/

namespace ApiPages

/-- What the arguments ask for. -/
structure Invocation where
  /-- The files that declare classes. -/
  documents : List Text := []
  /-- The classes to document; all of them if the list is empty. -/
  classes : List Text := []
  properties : List MethodProperty := []
  methodPattern : Option Text := none
  format : Option Format := none
  see : Bool := false
  noExamples : Bool := false
  verbose : Bool := false
  settingsPath : Option Text := none
deriving DecidableEq, Repr

namespace Invocation

/-- The settings with what the arguments change. -/
def override (i : Invocation) (s : Settings) : Settings :=
  { s with
    properties := if i.properties.isEmpty then s.properties else i.properties
    methodPattern := i.methodPattern.or s.methodPattern
    format := i.format.getD s.format
    includeSee := i.see || s.includeSee
    appendExamples := !i.noExamples && s.appendExamples }

end Invocation

/-- Why a run fails. -/
inductive RunError where
  | settings (cause : SettingsError)
  | document (path : Text) (cause : LoadError)
  | pattern
  | undocumented (name : Text) (cause : DocError)
deriving DecidableEq, Repr

def RunError.message : RunError → Text
  | .settings _ => "failed to load configuration"
  | .document path _ => "failed to load descriptors from ".toList ++ path
  | .pattern => "invalid method filter"
  | .undocumented name _ => "failed to document ".toList ++ name

/-- How a run ends. -/
inductive Outcome where
  | printed (text : Text)
  | failed (error : RunError)
  /-- The arguments cannot be read. -/
  | misused
deriving DecidableEq, Repr

def Outcome.exitCode : Outcome → Nat
  | .printed _ => 0
  | .failed _ => 1
  | .misused => 2

/-- What stands between two pages. -/
def Page.separator : Text :=
  "\n<hr />\n\n"

/-- The classes as one text. -/
def Format.print (format : Format) (o : PageOptions) (classes : List ClassDoc) : Text :=
  match format with
  | .markdown => Text.join Page.separator (classes.map (Page.render · o))
  | .json => (Json.array (classes.map ClassDoc.toJson)).pretty ++ ['\n']

/-- Documents classes in turn up to the first that cannot be documented.  Classes with an ignore tag
are left out. -/
def Codebase.collect (cb : Codebase) (filter : MemberFilter) (names : List Text) :
    Except RunError (List ClassDoc) := do
  let (answers, _) := cb.documentEach filter.accepts [] names
  let classes ← (names.zip answers).mapM fun (name, answer) =>
    answer.mapError (RunError.undocumented name)
  pure (classes.filter (!·.hasIgnoreTag))

/-- How the texts that a run is given are read. -/
structure Readers where
  /-- Reads the arguments, unless they are misused. -/
  arguments : List Text → Option Invocation
  documents : DocumentReader
  settings : SettingsReader
  patterns : PatternReader

namespace Readers

/-- Adds the classes of a document to an index. -/
def addDocument (r : Readers) (files : FileTree) (ix : ClassIndex) (path : Text) :
    Except RunError ClassIndex :=
  match (r.documents.loadFile files path).toExcept ix with
  | .ok (ix, _) => .ok ix
  | .error e => .error (.document path e)

/-- The index of the builtin classes and those of the documents. -/
def loadIndex (r : Readers) (i : Invocation) (files : FileTree) : Except RunError ClassIndex :=
  i.documents.foldlM (r.addDocument files) .withBuiltins

/-- The text that a run prints. -/
def run (r : Readers) (i : Invocation) (files : FileTree) (configDirectory : Text) :
    Except RunError Text := do
  let settings ← (r.settings.load files configDirectory i.settingsPath).mapError RunError.settings
  let settings := i.override settings
  let index ← r.loadIndex i files
  match r.patterns.memberFilter? settings with
  | none => throw .pattern
  | some filter =>
    let names := if i.classes.isEmpty then index.documentable else i.classes
    let classes ← Codebase.collect ⟨index, files⟩ filter names
    pure (settings.format.print settings.pageOptions classes)

/-- Runs the program. -/
def runArgs (r : Readers) (args : List Text) (files : FileTree) (configDirectory : Text) : Outcome :=
  match r.arguments args with
  | none => .misused
  | some i =>
    match r.run i files configDirectory with
    | .ok text => .printed text
    | .error e => .failed e

end Readers

end ApiPages
