import ApiPages.Settings
import ApiPages.Toml.Document

/-! # Settings in TOML

Every key is optional and unknown keys are ignored. -/

namespace ApiPages

namespace Settings

/-- The value of a key, or a default if the key is missing. -/
def setting? (fields : Toml.Fields) (key : String) (read : Toml.Value → Option α) (default : α) :
    Option α :=
  match Toml.find? key.toList fields with
  | none => some default
  | some v => read v

def text? : Toml.Value → Option (Option Text)
  | .string s => some (some s)
  | _ => none

def bool? : Toml.Value → Option Bool
  | .bool b => some b
  | _ => none

def properties? (v : Toml.Value) : Option (List MethodProperty) := do
  let items ← v.items?
  items.mapM fun item => item.word?.bind MethodProperty.ofName?

def format? (v : Toml.Value) : Option Format :=
  v.word?.bind Format.ofName?

/-- The settings that a table holds. -/
def ofFields? (fields : Toml.Fields) : Option Settings := do
  let properties ← setting? fields "visibility" properties? []
  let methodPattern ← setting? fields "method_pattern" text? none
  let format ← setting? fields "format" format? .markdown
  let includeSee ← setting? fields "include_see" bool? false
  let appendExamples ← setting? fields "append_examples" bool? true
  let declareAbstract ← setting? fields "declare_abstraction" bool? true
  let titleFormat ← setting? fields "title_format" text? none
  pure ⟨properties, methodPattern, format, includeSee, appendExamples, declareAbstract, titleFormat⟩

/-- The settings that a document holds. -/
def ofToml? (s : Text) : Option Settings :=
  (Toml.parse? s).bind ofFields?

end Settings

end ApiPages
