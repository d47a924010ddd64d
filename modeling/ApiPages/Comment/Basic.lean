import ApiPages.Comment.Segment
import ApiPages.TypeUnion

/-! # What a doc comment says

`Comment.read` interprets the segments of a doc comment.  Each field of the result depends only on
the segments with one tag (or with one of two spellings of it), so the order of different tags does
not matter.  Tags without a field of their own are kept by name in `otherTags`.  Nothing in here
fails: a malformed tag contributes nothing. -/

namespace ApiPages

/-- A documented parameter. -/
structure ParamTag where
  /-- The name without the `$`. -/
  name : Text
  /-- The documented type in canonical form. -/
  type : Text
  description : Text
deriving DecidableEq, Repr

/-- The content of a doc comment. -/
structure Comment where
  description : Text := []
  params : List ParamTag := []
  /-- The documented return type as written, empty if there is none. -/
  returnType : Text := []
  returnDescription : Text := []
  exampleText : Text := []
  /-- Present exactly if the comment deprecates its subject, possibly without a message. -/
  deprecated : Option Text := none
  see : List Text := []
  inheritsDoc : Bool := false
  ignored : Bool := false
  internal : Bool := false
  /-- The texts of all other tags, by name in ascending order. -/
  otherTags : List (Text × List Text) := []
deriving DecidableEq, Repr

namespace ParamTag

/-- The characters that may stand before the name of a documented parameter. -/
def isSigil (c : Char) : Bool :=
  c == '&' || c == '.' || c == '$'

/-- The parameter named by `word`, if there is a name before its first `=`. -/
def ofWords? (ns type word : Text) (rest lines : List Text) : Option ParamTag :=
  let name := (word.takeWhile (· != '=')).dropWhile isSigil
  if name.isEmpty then none
  else some ⟨name, TypeUnion.canonical ns type,
    Text.trim (Text.unwords rest ++ lines.flatMap (' ' :: ·))⟩

/-- Reads a parameter tag: a name that starts with `$`, or a type and a name.  Bare class names lie
in `ns`. -/
def ofSegment? (ns : Text) (s : Segment) : Option ParamTag :=
  match s.head with
  | ('$' :: name) :: rest => ofWords? ns "mixed" ('$' :: name) rest s.lines
  | type :: name :: rest => ofWords? ns type name rest s.lines
  | _ => none

/-- Adds a parameter to a list; a parameter of the same name is replaced where it stands. -/
def upsert (p : ParamTag) (ps : List ParamTag) : List ParamTag :=
  upsertBy ParamTag.name p ps

end ParamTag

namespace Segment

/-- Whether a word is the address of a web page. -/
def isAddress (word : Text) : Bool :=
  Text.startsWith word "http://" || Text.startsWith word "https://"

/-- Reads a reference to something else: a link if it starts with an address, a text otherwise. -/
def reference? (s : Segment) : Option Text :=
  match s.words with
  | [] => none
  | first :: rest =>
    if !isAddress first then some (Text.unwords (first :: rest))
    else if rest.isEmpty then some ('<' :: first ++ ['>'])
    else some ('[' :: Text.unwords rest ++ "](".toList ++ first ++ [')'])

/-- Reads a return tag: the type and its description. -/
def returned? (s : Segment) : Option (Text × Text) :=
  match s.words with
  | [] => none
  | type :: rest => some (type, Text.unwords rest)

end Segment

namespace Comment

/-- The inline spellings of a request to inherit the documentation. -/
def inheritMarks : List Text :=
  ["\x7b@inheritDoc\x7d", "\x7b@inheritdoc\x7d"]

/-- The tags that have a field of their own. -/
def knownTags : List Text :=
  [Segment.descriptionTag, Segment.exampleTag, "param", "see", "return", "deprecated", "inheritDoc",
    "inheritdoc", "ignore", "internal"]

/-- The segments with the given tag. -/
def tagged (segments : List Segment) (tag : Text) : List Segment :=
  segments.filter (·.tag == tag)

/-- Whether some segment has the given tag. -/
def hasTag (segments : List Segment) (tag : Text) : Bool :=
  segments.any (·.tag == tag)

/-- The non-empty texts of the segments with the given tag, joined with `sep`. -/
def textOf (segments : List Segment) (tag sep : Text) : Text :=
  Text.join sep (((tagged segments tag).map Segment.text).filter (fun t => !t.isEmpty))

/-- Removes the inline requests to inherit from a description. -/
def dropMarks (description : Text) : Text :=
  inheritMarks.foldl (fun d mark => Text.trim (Text.replaceAll mark [] d)) description

/-- The documented parameters: each name once, where it is first documented, with the content of
its last tag. -/
def paramsOf (ns : Text) (segments : List Segment) : List ParamTag :=
  ((tagged segments "param").filterMap (ParamTag.ofSegment? ns)).foldl (fun ps p => p.upsert ps) []

/-- The return type and description of the first return tag with any words. -/
def returnOf (segments : List Segment) : Text × Text :=
  ((tagged segments "return").findSome? Segment.returned?).getD ([], [])

/-- The names of the tags without a field of their own, in ascending order. -/
def otherTagNames (segments : List Segment) : List Text :=
  ((segments.map Segment.tag).filter
    (fun tag => !tag.isEmpty && !knownTags.contains tag)).eraseDups.mergeSort Text.le

/-- The content of a list of segments.  `inlineMark` tells whether the comment asks inline to
inherit its documentation; inherited documentation replaces the comment's own parameters and
return value. -/
def ofSegments (ns : Text) (inlineMark : Bool) (segments : List Segment) : Comment :=
  let inheritsDoc := inlineMark || hasTag segments "inheritDoc" || hasTag segments "inheritdoc"
  let returned := if inheritsDoc then ([], []) else returnOf segments
  { description := dropMarks (textOf segments Segment.descriptionTag [' '])
    params := if inheritsDoc then [] else paramsOf ns segments
    returnType := returned.1
    returnDescription := returned.2
    exampleText := textOf segments Segment.exampleTag ['\n']
    deprecated :=
      if hasTag segments "deprecated" then some (textOf segments "deprecated" [' ']) else none
    see := (tagged segments "see").filterMap Segment.reference?
    inheritsDoc := inheritsDoc
    ignored := hasTag segments "ignore"
    internal := hasTag segments "internal"
    otherTags := (otherTagNames segments).map fun tag =>
      (tag, (tagged segments tag).map Segment.text) }

/-- The content of a doc comment whose bare class names lie in `ns`. -/
def read (ns raw : Text) : Comment :=
  let body := clean raw
  ofSegments ns (inheritMarks.any (Text.occurs · body)) (Segment.ofText body)

/-- The documented parameter of a name, which may be written with leading `$`. -/
def param? (c : Comment) (name : Text) : Option ParamTag :=
  c.params.find? (·.name == name.dropWhile (· == '$'))

/-- The texts of a tag without a field of its own. -/
def tagValues (c : Comment) (tag : Text) : List Text :=
  (c.otherTags.find? (·.1 == tag)).elim [] Prod.snd

/-- The texts of the `todo` tags. -/
def todos (c : Comment) : List Text :=
  c.tagValues "todo"

end Comment

end ApiPages
