import ApiPages.Files.Basic
import ApiPages.MemberFilter
import ApiPages.Page.Basic

/-! # Settings

Settings are loaded from a file.  How they are read from its text is left open (`SettingsReader`), and so
is how the pattern among them is read (`PatternReader`). -/

namespace ApiPages

/-- The form in which classes are printed. -/
inductive Format where
  | markdown
  | json
deriving DecidableEq, Repr

namespace Format

def text : Format → Text
  | .markdown => "markdown"
  | .json => "json"

/-- The form of exactly the given name. -/
def ofName? (name : Text) : Option Format :=
  [markdown, json].find? (·.text == name)

end Format

structure Settings where
  properties : List MethodProperty := []
  methodPattern : Option Text := none
  format : Format := .markdown
  includeSee : Bool := false
  appendExamples : Bool := true
  declareAbstract : Bool := true
  titleFormat : Option Text := none
deriving DecidableEq, Repr

/-- Why settings cannot be loaded. -/
inductive SettingsError where
  | unreadable (path : Text) (fault : ReadFault)
  | malformed
deriving DecidableEq, Repr

namespace Settings

/-- The directory for configuration in a home directory. -/
def configDirectory (home : Text) : Text :=
  Path.join home ".config"

/-- Where settings are looked up, the file of the working directory before that of the user. -/
def searchPaths (configDirectory : Text) : List Text :=
  ["phpdocs-md.toml", Path.join (Path.join configDirectory "phpdocs-md") "config.toml"]

def pageOptions (s : Settings) : PageOptions where
  includeSee := s.includeSee
  appendExamples := s.appendExamples
  declareAbstract := s.declareAbstract
  titleFormat := s.titleFormat.getD ClassDoc.defaultTitleFormat

end Settings

/-- Reads settings from a text, unless it is malformed. -/
def SettingsReader := Text → Option Settings

namespace SettingsReader

/-- The settings that a text holds. -/
def ofText (read : SettingsReader) (s : Text) : Except SettingsError Settings :=
  match read s with
  | none => .error .malformed
  | some settings => .ok settings

/-- The settings in a file. -/
def ofFile (read : SettingsReader) (files : FileTree) (path : Text) : Except SettingsError Settings :=
  match files.read path with
  | .error fault => .error (.unreadable path fault)
  | .ok s => read.ofText s

/-- Loads the settings from a chosen file, which must exist, or else from the first file found. -/
def load (read : SettingsReader) (files : FileTree) (configDirectory : Text) (chosen : Option Text) :
    Except SettingsError Settings :=
  match chosen.or ((Settings.searchPaths configDirectory).find? files.isFile) with
  | none => .ok {}
  | some path => read.ofFile files path

end SettingsReader

/-- Reads a pattern from a text, if it is well formed. -/
def PatternReader := Text → Option Pattern

/-- The filter for methods that settings choose, unless the pattern is not valid.  An empty pattern is no
pattern. -/
def PatternReader.memberFilter? (read : PatternReader) (s : Settings) : Option MemberFilter :=
  match s.methodPattern with
  | none | some [] => some ⟨s.properties, none⟩
  | some pattern => (read pattern).map fun p => ⟨s.properties, some p⟩

end ApiPages
