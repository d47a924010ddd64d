import ApiPages.ClassName
import ApiPages.Number.Shortest

/-! # Declarations

What is known about the declared code before any documentation is read: classes with their methods
and parameters, as a reflection of the source would report them. -/

namespace ApiPages

/-- Who may use a member of a class. -/
inductive Visibility where
  | pub
  | prot
  | priv
deriving DecidableEq, Repr

/-- A declared type: one name, in which `|` separates alternatives, or a list of names. -/
inductive DeclaredType where
  | named (name : Text)
  | union (names : List Text)
deriving DecidableEq, Repr

/-- The default value of a parameter. -/
inductive DefaultValue where
  | string (s : Text)
  | int (n : Int)
  | float (x : Binary64)
  | bool (b : Bool)
  | null
  | array
  /-- A constant expression as written. -/
  | constant (expr : Text)
deriving DecidableEq, Repr

/-- A declared parameter. -/
structure ParamDecl where
  /-- The name, with or without its `$`. -/
  name : Text
  type : Option DeclaredType := none
  default : Option DefaultValue := none
deriving DecidableEq, Repr

/-- A declared method. -/
structure MethodDecl where
  name : Text
  visibility : Visibility := .pub
  isStatic : Bool := false
  isAbstract : Bool := false
  isFinal : Bool := false
  /-- The class that declares the method, if it is not the class that lists it. -/
  declaringClass : Option Text := none
  /-- The doc comment with its delimiters. -/
  comment : Option Text := none
  params : List ParamDecl := []
  returnType : Option DeclaredType := none
deriving DecidableEq, Repr

/-- A declared class or interface. -/
structure ClassDecl where
  name : Text
  isInterface : Bool := false
  isAbstract : Bool := false
  /-- Whether the class comes with the language and has no source. -/
  isBuiltin : Bool := false
  parent : Option Text := none
  /-- The interfaces that a class implements or an interface extends. -/
  interfaces : List Text := []
  /-- The path of the source file. -/
  file : Option Text := none
  /-- The source text itself, which is preferred to the file. -/
  source : Option Text := none
  /-- The doc comment with its delimiters. -/
  comment : Option Text := none
  methods : List MethodDecl := []
deriving DecidableEq, Repr

/-- The non-empty names among trimmed names. -/
def DeclaredType.members : DeclaredType → List Text
  | .named name => ((name.splitOn '|').map Text.trim).filter (fun n => !n.isEmpty)
  | .union names => (names.map Text.trim).filter (fun n => !n.isEmpty)

namespace DefaultValue

/-- A decimal integer. -/
def renderInt (n : Int) : Text :=
  let digits := Nat.toDigits 10 n.natAbs
  if n < 0 then '-' :: digits else digits

/-- The value as shown next to its parameter. -/
def render : DefaultValue → Text
  | .string s => ['\x60', '\x27'] ++ s ++ ['\x27', '\x60']
  | .int n => renderInt n
  | .float x => x.render
  | .bool true => "true"
  | .bool false => "false"
  | .null => "null"
  | .array => "[]"
  | .constant expr => expr

/-- The type that the value implies for a parameter without any other type. -/
def impliedType? : DefaultValue → Option Text
  | .string _ => some "string"
  | .bool _ => some "bool"
  | .array => some "array"
  | _ => none

end DefaultValue

/-- The name without white space around it and without leading `$`. -/
def ParamDecl.bareName (p : ParamDecl) : Text :=
  (Text.trim p.name).dropWhile (· == '$')

namespace ClassDecl

/-- The key by which the class is looked up. -/
def key (c : ClassDecl) : Text :=
  ClassName.key c.name

/-- The namespace in which the class is declared. -/
def namespaceName (c : ClassDecl) : Text :=
  ClassName.namespaceOf c.name

end ClassDecl

end ApiPages
