import ApiPages.Decl.Basic

/-! # Choosing methods

A filter keeps the methods with one of the chosen properties and a matching name.  A filter that chooses
nothing keeps all methods.  What a pattern for names can say is left open. -/

namespace ApiPages

/-- A property by which methods are chosen. -/
inductive MethodProperty where
  | pub
  | prot
  | abstract_
  | final
deriving DecidableEq, Repr

namespace MethodProperty

def holds (m : MethodDecl) : MethodProperty → Bool
  | .pub => m.visibility = .pub
  | .prot => m.visibility = .prot
  | .abstract_ => m.isAbstract
  | .final => m.isFinal

def text : MethodProperty → Text
  | .pub => "public"
  | .prot => "protected"
  | .abstract_ => "abstract"
  | .final => "final"

/-- The property of exactly the given name. -/
def ofName? (name : Text) : Option MethodProperty :=
  [pub, prot, abstract_, final].find? (·.text == name)

/-- Reads a property, up to letter case and white space around it; an unknown name is given back. -/
def ofText (s : Text) : Except Text MethodProperty :=
  let name := Text.lower (Text.trim s)
  (ofName? name).elim (.error name) .ok

/-- The text for an unknown property. -/
def unknownMessage (name : Text) : Text :=
  "unknown visibility filter '".toList ++ name ++
    "' (expected public, protected, abstract or final)".toList

end MethodProperty

/-- A pattern for texts. -/
structure Pattern where
  /-- The pattern as written. -/
  source : Text
  /-- Whether it matches somewhere in a text. -/
  occursIn : Text → Bool

/-- Which methods of a class are documented. -/
structure MemberFilter where
  properties : List MethodProperty := []
  pattern : Option Pattern := none

namespace MemberFilter

/-- Whether a method is kept. -/
def accepts (f : MemberFilter) (m : MethodDecl) : Bool :=
  (f.properties.isEmpty || f.properties.any (·.holds m)) && f.pattern.all (·.occursIn m.name)

end MemberFilter

end ApiPages
