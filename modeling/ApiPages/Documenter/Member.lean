import ApiPages.Codebase
import ApiPages.Doc.Basic
import ApiPages.TypeUnion.Resolve

/-! # Documenting a method by its own comment

`isExcluded` says which methods are never documented, and `describe` documents a method from its own
comment and declaration. -/

namespace ApiPages

namespace MethodDecl

/-- What the comment of a method of the class `c` says. -/
def read (c : ClassDecl) (m : MethodDecl) : Comment :=
  Comment.read (ClassName.namespaceOf (ClassName.display c.name)) (m.comment.getD [])

/-- Whether a method is never documented: it is ignored, private, or declared by another class. -/
def isExcluded (c : ClassDecl) (m : MethodDecl) : Bool :=
  (m.read c).ignored || m.visibility = .priv ||
    m.declaringClass.any fun d => !(ClassDoc.ofName c.name).isNamed d

/-- Whether a method asks to inherit its documentation. -/
def inheritsDoc (c : ClassDecl) (m : MethodDecl) : Bool :=
  (m.read c).inheritsDoc

/-- Who may use a method, as it is shown. -/
def access (m : MethodDecl) : Access :=
  if m.visibility = .prot then .prot else .pub

end MethodDecl

namespace ClassIndex

/-- Whether a candidate is a built-in class or an array of one. -/
def isBuiltinCandidate (ix : ClassIndex) (candidate : Text) : Bool :=
  TypeUnion.isClassReference candidate && ix.isBuiltin (TypeUnion.elementType candidate)

/-- Whether a type is exactly one built-in class. -/
def isBuiltinType (ix : ClassIndex) (type : Text) : Bool :=
  match TypeUnion.candidates type with
  | [only] => ix.isBuiltinCandidate only
  | _ => false

end ClassIndex

namespace Codebase

/-- Documents a parameter of a method of the class `c`, whose comment is given. -/
def describeParam (cb : Codebase) (c : ClassDecl) (comment : Comment) (p : ParamDecl) : ParamDoc :=
  let tag := comment.param? p.bareName
  let type := TypeUnion.paramType (ClassName.display c.name) tag p
  { ParamDoc.ofName p.bareName with
    description := tag.elim [] ParamTag.description
    type := type
    default := p.default.map DefaultValue.render
    builtinType := (TypeUnion.candidates type).find? cb.index.isBuiltinCandidate }

/-- Documents a method of the class `c` by its own comment. -/
def describe (cb : Codebase) (c : ClassDecl) (m : MethodDecl) : MethodDoc :=
  let comment := m.read c
  let scope : TypeScope := ⟨ClassName.display c.name, cb.importsOf c⟩
  let returnType := TypeUnion.returnType scope comment.returnType m
  { (({ name := m.name } : ItemDoc).apply comment) with
    params := m.params.map (cb.describeParam c comment)
    returnType := returnType
    returnDescription := comment.returnDescription
    access := m.access
    isStatic := m.isStatic
    isAbstract := m.isAbstract
    className := ClassName.display c.name
    todo := comment.todos
    returnsBuiltin := cb.index.isBuiltinType returnType }

end Codebase

end ApiPages
