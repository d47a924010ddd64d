import ApiPages.Comment.Basic

/-! # Documented classes

The model that the pages are made of: a class with its methods and their parameters.  All three are
documented items and share the fields of `ItemDoc`. -/

namespace ApiPages

/-- What every documented item has. -/
structure ItemDoc where
  name : Text := []
  description : Text := []
  deprecated : Bool := false
  deprecationMessage : Text := []
  internal : Bool := false
  exampleText : Text := []
  see : List Text := []
deriving DecidableEq, Repr

/-- Who may use a documented method.  Private methods are never documented. -/
inductive Access where
  | pub
  | prot
deriving DecidableEq, Repr

/-- A documented parameter. -/
structure ParamDoc extends ItemDoc where
  type : Text := "mixed"
  /-- The default value as shown; a parameter without one is required. -/
  default : Option Text := none
  /-- The first candidate of the type that is a built-in class. -/
  builtinType : Option Text := none
deriving DecidableEq, Repr

/-- A documented method. -/
structure MethodDoc extends ItemDoc where
  params : List ParamDoc := []
  returnType : Text := "void"
  returnDescription : Text := []
  access : Access := .pub
  isStatic : Bool := false
  isAbstract : Bool := false
  /-- The class on which the method is documented. -/
  className : Text := []
  todo : List Text := []
  /-- Whether the return type is one built-in class. -/
  returnsBuiltin : Bool := false
deriving DecidableEq, Repr

/-- A documented class or interface. -/
structure ClassDoc extends ItemDoc where
  methods : List MethodDoc := []
  isInterface : Bool := false
  isAbstract : Bool := false
  hasIgnoreTag : Bool := false
  hasInternalTag : Bool := false
  parent : Option Text := none
  interfaces : List Text := []
  isBuiltin : Bool := false
deriving DecidableEq, Repr

namespace ItemDoc

/-- Takes over what a comment says about the item.  A comment without a deprecation leaves the
item's own as it is. -/
def apply (item : ItemDoc) (c : Comment) : ItemDoc :=
  { item with
    description := c.description
    exampleText := c.exampleText
    see := c.see
    internal := c.internal
    deprecated := item.deprecated || c.deprecated.isSome
    deprecationMessage := c.deprecated.getD item.deprecationMessage }

end ItemDoc

namespace ParamDoc

/-- A parameter of a name; the `$` is added if it is missing. -/
def ofName (name : Text) : ParamDoc :=
  { name := '$' :: (Text.trim name).dropWhile (· == '$') }

end ParamDoc

namespace MethodDoc

def ofName (name : Text) : MethodDoc :=
  { name := name }

end MethodDoc

namespace ClassDoc

/-- A class of a name, which takes its display form. -/
def ofName (name : Text) : ClassDoc :=
  { name := ClassName.display name }

/-- Whether the class is the one of the given name. -/
def isNamed (c : ClassDoc) (name : Text) : Bool :=
  Text.sameLetters (ClassName.display name) c.name

/-- The first method of a name, up to letter case. -/
def method? (c : ClassDoc) (name : Text) : Option MethodDoc :=
  c.methods.find? fun m => Text.sameLetters m.name name

def setParent (c : ClassDoc) (parent : Text) : ClassDoc :=
  { c with parent := some (ClassName.display parent) }

def setInterfaces (c : ClassDoc) (interfaces : List Text) : ClassDoc :=
  { c with interfaces := interfaces.map ClassName.display }

end ClassDoc

end ApiPages
