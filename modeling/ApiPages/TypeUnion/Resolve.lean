import ApiPages.TypeUnion.Merge
import ApiPages.Comment.Basic
import ApiPages.Import

/-! # Types of returns and parameters

`returnType` and `paramType` decide the types that are shown.  A return type goes through the imports
of the source and is qualified by the namespace of its class; without any type it is guessed from
the method's name. -/

namespace ApiPages

/-- What the types of a class's members depend on. -/
structure TypeScope where
  /-- The class whose members are described. -/
  className : Text
  /-- The imports of its source. -/
  imports : List Import

namespace TypeScope

def namespaceName (scope : TypeScope) : Text :=
  ClassName.namespaceOf scope.className

end TypeScope

namespace TypeUnion

/-! ### Guesses -/

/-- How names of methods start that return something of any type. -/
def mixedVerbs : List Text :=
  ["get", "load", "fetch", "find", "create"]

/-- How names of methods start that return a truth value. -/
def boolVerbs : List Text :=
  ["is", "can", "has", "have", "should"]

/-- The return type guessed from the name of a method. -/
def guess (method : Text) : Text :=
  if mixedVerbs.any (Text.startsWith method) then "mixed"
  else if boolVerbs.any (Text.startsWith method) then "bool"
  else "void"

/-- Whether a documented return type means the class of the method. -/
def isSelfReference (type method : Text) : Bool :=
  let type := Text.trim type
  type = "self" || type = "static" || type = "$this" || type = method

/-! ### Imports -/

/-- A candidate without one trailing bracket pair, and that pair. -/
def splitArray (candidate : Text) : Text × Text :=
  match Text.dropSuffix? "[]" candidate with
  | some base => (base, "[]")
  | none => (candidate, [])

/-- The path of an import continued by the segments after the imported name. -/
def continuePath (path : Text) (base : Text) : Text :=
  path ++ base.dropWhile (· != '\\')

/-- Replaces the first segment of a bare class name by the path that the source imports under it. -/
def resolveCandidate (imports : List Import) (candidate : Text) : Text :=
  if candidate.head? = some '\\' ∨ candidate.head? = some '?' ∨ !isClassReference candidate then
    candidate
  else
    let (base, brackets) := splitArray candidate
    match Import.find? imports (base.takeWhile (· != '\\')) with
    | none => candidate
    | some found => continuePath found.path base ++ brackets

/-- Replaces the imported names among the candidates of a type. -/
def resolveImports (imports : List Import) (type : Text) : Text :=
  ofCandidates ((candidates type).map (resolveCandidate imports))

/-! ### Results -/

/-- The documented return type with a reference to the method's class spelled out. -/
def documentedReturn (scope : TypeScope) (method documented : Text) : Text :=
  if isSelfReference documented method then scope.className else Text.trim documented

/-- The return type of a method before its names are resolved. -/
def mergedReturn (scope : TypeScope) (documented : Text) (method : MethodDecl) : Text :=
  let documented := documentedReturn scope method.name documented
  match ofDeclared? scope.className method.returnType with
  | none => if documented.isEmpty then guess method.name else merge documented none
  | some declared => merge documented (some declared)

/-- The return type of a method. -/
def returnType (scope : TypeScope) (documented : Text) (method : MethodDecl) : Text :=
  canonical scope.namespaceName (resolveImports scope.imports (mergedReturn scope documented method))

/-- The type of a parameter in a method of the class `owner`. -/
def paramType (owner : Text) (documented : Option ParamTag) (param : ParamDecl) : Text :=
  let type := documented.elim [] ParamTag.type
  let declared := ofDeclared? owner param.type
  if type.isEmpty && declared.isNone then
    (param.default.bind DefaultValue.impliedType?).getD "mixed"
  else merge type declared

end TypeUnion

end ApiPages
