import ApiPages.Decl.Basic
import ApiPages.Json.Reader

/-! # Declarations in JSON

A declaration is an object, or an array of its fields in order.  Unknown fields are skipped, a known
field must not repeat, and a field that is absent takes its default.  A document is a list of
classes, or an object with such a list under `classes`. -/

namespace ApiPages

namespace Json

/-! ### Reading values of a given shape -/

def asText? : Json → Option Text
  | .string s => decode? s
  | _ => none

def asBool? : Json → Option Bool
  | .bool b => some b
  | _ => none

def asList? (read : Json → Option α) : Json → Option (List α)
  | .array items => items.mapM read
  | _ => none

/-- Reads a value that may be null. -/
def asOption? (read : Json → Option α) : Json → Option (Option α)
  | .null => some none
  | v => (read v).map some

/-- Reads the name of an alternative: a string, or an object that maps it to null. -/
def asTag? : Json → Option Text
  | .string s => decode? s
  | .object [(name, .null)] => decode? name
  | _ => none

/-- The fields of an object with decoded names. -/
def decodeFields? (fields : List (Text × Json)) : Option (List (Text × Json)) :=
  fields.mapM fun (name, v) => (decode? name).map (·, v)

/-- The values of the named fields, in the order of `names`.  An array lists them by position. -/
def fieldsOf? (names : List Text) : Json → Option (List (Option Json))
  | .object fields => do
    let fields ← decodeFields? fields
    names.mapM fun name =>
      match fields.filter (·.1 == name) with
      | [] => some none
      | [(_, v)] => some (some v)
      | _ => none
  | .array items =>
    if items.length ≤ names.length then
      some (items.map some ++ List.replicate (names.length - items.length) none)
    else none
  | _ => none

/-- Reads a field that must be present. -/
def required? (read : Json → Option α) (field : Option Json) : Option α :=
  field.bind read

/-- Reads a field that has a default. -/
def optional? (default : α) (read : Json → Option α) (field : Option Json) : Option α :=
  field.elim (some default) read

end Json

open Json

/-! ### Declarations -/

def Visibility.ofTag? (tag : Text) : Option Visibility :=
  if tag = "public" then some .pub
  else if tag = "protected" then some .prot
  else if tag = "private" then some .priv
  else none

def Visibility.ofJson? (v : Json) : Option Visibility :=
  (asTag? v).bind Visibility.ofTag?

def DeclaredType.ofJson? (v : Json) : Option DeclaredType :=
  ((asText? v).map .named).or ((asList? asText? v).map .union)

namespace DefaultValue

/-- The kinds without a value of their own admit null in its place. -/
def noValue? (field : Option Json) : Option Unit :=
  match field with
  | none | some .null => some ()
  | _ => none

def asInt64? : Json → Option Int
  | .number n => n.toInt64?
  | _ => none

def asBinary64? : Json → Option Binary64
  | .number n => n.toBinary64?
  | _ => none

/-- The default value of a kind, read from the field that holds it. -/
def ofKind? (kind : Text) (field : Option Json) : Option DefaultValue :=
  if kind = "string" then (required? asText? field).map .string
  else if kind = "int" then (required? asInt64? field).map .int
  else if kind = "float" then (required? asBinary64? field).map .float
  else if kind = "bool" then (required? asBool? field).map .bool
  else if kind = "null" then (noValue? field).map fun _ => .null
  else if kind = "array" then (noValue? field).map fun _ => .array
  else if kind = "constant" then (required? asText? field).map .constant
  else none

/-- Whether a value is an array whose length is not `n`. -/
def isArrayNotOf (n : Nat) : Json → Bool
  | .array items => items.length != n
  | _ => false

def ofJson? (v : Json) : Option DefaultValue :=
  if isArrayNotOf 2 v then none
  else
    match fieldsOf? ["kind", "value"] v with
    | some [kind, value] => (required? asTag? kind).bind fun k => ofKind? k value
    | _ => none

end DefaultValue

def ParamDecl.ofJson? (v : Json) : Option ParamDecl :=
  match fieldsOf? ["name", "type", "default"] v with
  | some [name, type, default] => do
    pure {
      name := ← required? asText? name
      type := ← optional? none (asOption? DeclaredType.ofJson?) type
      default := ← optional? none (asOption? DefaultValue.ofJson?) default }
  | _ => none

def MethodDecl.ofJson? (v : Json) : Option MethodDecl :=
  match fieldsOf? ["name", "visibility", "is_static", "is_abstract", "is_final", "declaring_class",
    "doc_comment", "parameters", "return_type"] v with
  | some [name, visibility, isStatic, isAbstract, isFinal, declaringClass, comment, params,
      returnType] => do
    pure {
      name := ← required? asText? name
      visibility := ← optional? .pub Visibility.ofJson? visibility
      isStatic := ← optional? false asBool? isStatic
      isAbstract := ← optional? false asBool? isAbstract
      isFinal := ← optional? false asBool? isFinal
      declaringClass := ← optional? none (asOption? asText?) declaringClass
      comment := ← optional? none (asOption? asText?) comment
      params := ← optional? [] (asList? ParamDecl.ofJson?) params
      returnType := ← optional? none (asOption? DeclaredType.ofJson?) returnType }
  | _ => none

def ClassDecl.ofJson? (v : Json) : Option ClassDecl :=
  match fieldsOf? ["name", "is_interface", "is_abstract", "is_builtin", "extends", "interfaces",
    "file", "source", "doc_comment", "methods"] v with
  | some [name, isInterface, isAbstract, isBuiltin, parent, interfaces, file, source, comment,
      methods] => do
    pure {
      name := ← required? asText? name
      isInterface := ← optional? false asBool? isInterface
      isAbstract := ← optional? false asBool? isAbstract
      isBuiltin := ← optional? false asBool? isBuiltin
      parent := ← optional? none (asOption? asText?) parent
      interfaces := ← optional? [] (asList? asText?) interfaces
      file := ← optional? none (asOption? asText?) file
      source := ← optional? none (asOption? asText?) source
      comment := ← optional? none (asOption? asText?) comment
      methods := ← optional? [] (asList? MethodDecl.ofJson?) methods }
  | _ => none

/-- The classes of a document. -/
def ClassDecl.listOfJson? (v : Json) : Option (List ClassDecl) :=
  if !v.isPlain maxDepth then none
  else
    match v with
    | .object _ =>
      match fieldsOf? ["classes"] v with
      | some [classes] => required? (asList? ClassDecl.ofJson?) classes
      | _ => none
    | _ => asList? ClassDecl.ofJson? v

/-- The classes of a document given as text. -/
def ClassDecl.listOfText? (s : Text) : Option (List ClassDecl) :=
  (Json.parse? s).bind ClassDecl.listOfJson?

end ApiPages
