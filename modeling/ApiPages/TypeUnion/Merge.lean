import ApiPages.TypeUnion
import ApiPages.Decl.Basic

/-! # Documented against declared types

A comment documents a type and a signature declares one.  `merge` makes one type of the two;
`ofDeclared` brings a declared type into the form of a documented one. -/

namespace ApiPages

namespace TypeUnion

/-- Merges a documented type with a declared one.  Without a declared type the documented one
stands, or `mixed`; a declared type stands where nothing is documented or where both end in the same
class name; otherwise the result admits both. -/
def merge (documented : Text) (declared : Option Text) : Text :=
  let documented := Text.trim documented
  match (declared.map Text.trim).filter (fun d => !d.isEmpty) with
  | none => if documented.isEmpty then "mixed" else documented
  | some declared =>
    if documented = declared ∨ (declared = "array" ∧ Text.endsWith documented "[]") then documented
    else if documented.isEmpty then declared
    else if ClassName.short documented = ClassName.short declared then declared
    else ofCandidates [documented, declared]

/-- The candidate that a declared member stands for, in a method of the class `owner`. -/
def ofMember (owner member : Text) : Text :=
  let low := Text.lower member
  if low = "self" ∨ low = "static" then ClassName.display owner
  else if isNative member then member
  else ClassName.display member

/-- The candidates that a declared member stands for: a nullable one also admits `null`. -/
def expandMember (owner member : Text) : List Text :=
  match member with
  | '?' :: inner => [ofMember owner inner, "null"]
  | _ => [ofMember owner member]

/-- The type of a declaration in the class `owner`. -/
def ofDeclared (owner : Text) (type : DeclaredType) : Text :=
  ofCandidates (type.members.flatMap (expandMember owner))

/-- The type of an optional declaration, if it has any candidate. -/
def ofDeclared? (owner : Text) (type : Option DeclaredType) : Option Text :=
  (type.map (ofDeclared owner)).filter (fun t => !t.isEmpty)

end TypeUnion

end ApiPages
