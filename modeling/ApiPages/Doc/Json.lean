import ApiPages.Doc.Basic
import ApiPages.Json.Basic

/-! # Documented classes in JSON -/

namespace ApiPages

def Access.text : Access → Text
  | .pub => "public"
  | .prot => "protected"

/-- An object with the given fields in order. -/
def Json.ofFields (fields : List (String × Json)) : Json :=
  .record (fields.map fun (name, v) => (name.toList, v))

/-- The fields that every documented item has. -/
def ItemDoc.fields (i : ItemDoc) : List (String × Json) :=
  [("name", .ofText i.name), ("description", .ofText i.description),
    ("deprecated", .bool i.deprecated), ("deprecation_message", .ofText i.deprecationMessage),
    ("internal", .bool i.internal), ("example", .ofText i.exampleText), ("see", .ofTexts i.see)]

def ParamDoc.toJson (p : ParamDoc) : Json :=
  .ofFields (p.toItemDoc.fields ++
    [("type", .ofText p.type), ("default", .ofText? p.default),
      ("native_class_type", .ofText? p.builtinType)])

def MethodDoc.toJson (m : MethodDoc) : Json :=
  .ofFields (m.toItemDoc.fields ++
    [("params", .array (m.params.map ParamDoc.toJson)), ("return_type", .ofText m.returnType),
      ("return_description", .ofText m.returnDescription), ("visibility", .ofText m.access.text),
      ("is_static", .bool m.isStatic), ("is_abstract", .bool m.isAbstract),
      ("class", .ofText m.className), ("todo", .ofTexts m.todo),
      ("returns_native_class", .bool m.returnsBuiltin)])

def ClassDoc.toJson (c : ClassDoc) : Json :=
  .ofFields (c.toItemDoc.fields ++
    [("functions", .array (c.methods.map MethodDoc.toJson)), ("is_interface", .bool c.isInterface),
      ("is_abstract", .bool c.isAbstract), ("has_ignore_tag", .bool c.hasIgnoreTag),
      ("has_internal_tag", .bool c.hasInternalTag), ("extends", .ofText (c.parent.getD [])),
      ("interfaces", .ofTexts c.interfaces), ("is_native", .bool c.isBuiltin)])

end ApiPages
