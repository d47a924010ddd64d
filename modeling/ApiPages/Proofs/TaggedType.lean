import ApiPages.Proofs.Decoration
import ApiPages.Proofs.DocumentedType
import ApiPages.Proofs.MissingType
import ApiPages.Proofs.OwnTags

/-! # One type in two tags

A comment can document the same type for a parameter and for what a method returns (`typeRows`).  The two tags are read
in different ways.  The type of a parameter is qualified when the comment is read, and the imports of the source are
never asked (`describeParam_type_of_tag`).  A return type goes through the imports first (`describe_returnType_of_tag`).

So the two types agree if no candidate is imported, and a bare class name is shown differently unless its import leads
to the class of that name in the namespace (`buildMethod_types_agree`, `parameter_not_imported`). -/

namespace ApiPages

namespace Segment

variable {lines rows : List Text}

theorem collect_append (h : ∀ line ∈ lines, opensTag line = false) (current : Segment) (rows : List Text) :
    collect current (lines ++ rows) = collect (current.pushAll lines) rows := by
  induction lines generalizing current with
  | nil => rfl
  | cons line lines ih =>
      obtain ⟨hline, hlines⟩ := List.forall_mem_cons.mp h
      rcases row_cases line with hb | ⟨tag, head, ht⟩ | hc
      · rw [List.cons_append, collect_blank hb, pushAll_cons_of_blank hb, ih hlines]
      · rw [opensTag_of_words_eq_cons ht] at hline
        cases hline
      · rw [List.cons_append, collect_line hc, pushAll_cons_of_continues hc, ih hlines]

end Segment

/-! ### The two tags -/

namespace Comment

variable {word ns : Text} {lines : List Text}

/-- Rows that document a type for the parameter `$x` and for what is returned. -/
def typeRows (word : Text) : List Text :=
  ["@param".toList ++ ' ' :: (word ++ ' ' :: "$x".toList), "@return".toList ++ ' ' :: word]

/-- A line before the first tag that does not ask to inherit the documentation. -/
structure IsDescription (line : Text) : Prop where
  oneLine : Text.OneLine line
  opensTag : Segment.opensTag line = false
  noMark : ∀ mark ∈ inheritMarks, Text.occurs mark line = false

/-- A word that can be the type in a parameter tag. -/
structure IsTypeWord (word : Text) : Prop where
  oneWord : ∀ x ∈ word, Text.isBlank x = false
  notName : word.head? ≠ some '$'
  named : TypeUnion.candidates word ≠ []
  noMark : ∀ mark ∈ inheritMarks, Text.occurs mark word = false

instance : DecidablePred IsTypeWord :=
  fun word => decidable_of_iff
    (word.any Text.isBlank = false ∧ word.head? ≠ some '$' ∧ TypeUnion.candidates word ≠ [] ∧
      ∀ mark ∈ inheritMarks, Text.occurs mark word = false)
    ⟨fun ⟨hword, hname, hnamed, hmark⟩ => ⟨by simpa using hword, hname, hnamed, hmark⟩,
      fun h => ⟨by simpa using h.oneWord, h.notName, h.named, h.noMark⟩⟩

namespace IsTypeWord

variable (h : IsTypeWord word)

include h

theorem ne_nil : word ≠ [] := by
  rintro rfl
  exact h.named TypeUnion.candidates_nil

theorem words_param :
    Text.words ("@param".toList ++ ' ' :: (word ++ ' ' :: "$x".toList)) = ("@param" : Text) :: [word, "$x"] := by
  have hname : Text.words "$x" = [("$x" : Text)] := by decide
  have htag : Text.words "@param" = [("@param" : Text)] := by decide
  rw [Text.words_append_cons (by decide), Text.words_append_cons (by decide), hname, htag,
    Text.words_eq_singleton h.oneWord h.ne_nil]
  rfl

theorem words_return : Text.words ("@return".toList ++ ' ' :: word) = ("@return" : Text) :: [word] := by
  have htag : Text.words "@return" = [("@return" : Text)] := by decide
  rw [Text.words_append_cons (by decide), htag, Text.words_eq_singleton h.oneWord h.ne_nil]
  rfl

theorem oneLine_typeRows : ∀ row ∈ typeRows word, Text.OneLine row := by
  have hword : ∀ x, Text.isBlank x = true → x ∉ word := by
    intro x hx hmem
    rw [h.oneWord x hmem] at hx
    cases hx
  have hfeed := hword '\n' (by decide)
  have hreturn := hword '\r' (by decide)
  intro row hrow
  rcases List.mem_pair.mp hrow with rfl | rfl
  · exact ⟨by simp [hfeed], by simp [hreturn]⟩
  · exact ⟨by simp [hfeed], by simp [hreturn]⟩

theorem noMark_typeRows : ∀ row ∈ typeRows word, ∀ mark ∈ inheritMarks, Text.occurs mark row = false := by
  intro row hrow mark hmark
  have hplain : mark ≠ [] ∧ ' ' ∉ mark ∧ Text.occurs mark "@param" = false ∧ Text.occurs mark "$x" = false ∧
      Text.occurs mark "@return" = false := by
    revert mark
    decide
  obtain ⟨hne, hspace, hparam, hname, hreturn⟩ := hplain
  rcases List.mem_pair.mp hrow with rfl | rfl
  · rw [Text.occurs_append_cons hne hspace, Text.occurs_append_cons hne hspace, hparam, hname,
      h.noMark mark hmark]
    rfl
  · rw [Text.occurs_append_cons hne hspace, hreturn, h.noMark mark hmark]
    rfl

theorem collect_typeRows (hlines : ∀ line ∈ lines, IsDescription line) :
    Segment.collect ⟨Segment.descriptionTag, [], []⟩ (lines ++ typeRows word) =
      [(⟨Segment.descriptionTag, [], []⟩ : Segment).pushAll lines, ⟨"param", [word, "$x"], []⟩,
        ⟨"return", [word], []⟩] := by
  rw [Segment.collect_append fun line hline => (hlines line hline).opensTag, typeRows,
    Segment.collect_tag h.words_param, Segment.collect_tag h.words_return]
  rfl

theorem ofSegment?_param :
    ParamTag.ofSegment? ns ⟨"param", [word, "$x"], []⟩ = some ⟨"x", TypeUnion.canonical ns word, []⟩ := by
  unfold ParamTag.ofSegment?
  split
  · rename_i heq
    cases heq
    exact absurd rfl h.notName
  · rename_i heq
    cases heq
    rfl
  · rename_i hother
    exact absurd rfl (hother _ _ _)

/-- What the two tags after a description say: the type of the parameter in normal form, and the type of what is
returned as it is written. -/
theorem ofSegments_typeTags {description : Segment} (hd : description.tag = Segment.descriptionTag) (ns : Text) :
    let said := ofSegments ns false [description, ⟨"param", [word, "$x"], []⟩, ⟨"return", [word], []⟩]
    said.inheritsDoc = false ∧ said.params = [⟨"x", TypeUnion.canonical ns word, []⟩] ∧ said.returnType = word := by
  intro said
  have hparam : tagged [description, ⟨"param", [word, "$x"], []⟩, ⟨"return", [word], []⟩] "param" =
      [⟨"param", [word, "$x"], []⟩] := by
    rw [tagged, List.filter_cons_of_neg (by rw [hd]; decide)]
    rfl
  have hreturn : tagged [description, ⟨"param", [word, "$x"], []⟩, ⟨"return", [word], []⟩] "return" =
      [⟨"return", [word], []⟩] := by
    rw [tagged, List.filter_cons_of_neg (by rw [hd]; decide)]
    rfl
  have hinherits : said.inheritsDoc = false := by
    simp only [said, ofSegments, hasTag, List.any_cons, hd]
    rfl
  obtain ⟨hparams, hreturned⟩ := ofSegments_of_own hinherits
  refine ⟨hinherits, ?_, ?_⟩
  · rw [hparams, paramsOf, hparam, List.filterMap_cons_some h.ofSegment?_param]
    rfl
  · rw [hreturned, returnOf, hreturn]
    rfl

/-- The comment says the type as it is written of what is returned, and in normal form of the parameter. -/
theorem read_typeRows (hlines : ∀ line ∈ lines, IsDescription line) {rows : List (Margin × Text)}
    (hrows : rows.map Prod.snd = lines ++ typeRows word) (e : Text.Ending) (closing : Indent) (ns : Text) :
    let said := read ns (decorate e rows closing)
    said.inheritsDoc = false ∧ said.params = [⟨"x", TypeUnion.canonical ns word, []⟩] ∧ said.returnType = word := by
  have hone : ∀ row ∈ rows, row.2.OneLine := by
    refine List.forall_mem_map.mp ?_
    rw [hrows]
    exact List.forall_mem_append.mpr ⟨fun line hline => (hlines line hline).oneLine, h.oneLine_typeRows⟩
  have hmarks : (inheritMarks.any fun mark => (lines ++ typeRows word).any (Text.occurs mark)) = false := by
    rw [List.any_eq_false]
    intro mark hmark
    rw [Bool.not_eq_true, List.any_eq_false]
    intro row hrow
    rw [Bool.not_eq_true]
    rcases List.mem_append.mp hrow with hrow | hrow
    · exact (hlines row hrow).noMark mark hmark
    · exact h.noMark_typeRows row hrow mark hmark
  rw [read_decorate hone, hrows, hmarks, h.collect_typeRows hlines]
  exact h.ofSegments_typeTags (Segment.pushAll_tag _ _) ns

end IsTypeWord

end Comment

/-- A method that declares no types, with a comment that documents one type for its only parameter and for what it
returns. -/
structure MethodDecl.DocumentsTwice (m : MethodDecl) (word : Text) : Prop where
  comment : ∃ e rows closing lines, m.comment = some (Comment.decorate e rows closing) ∧
    rows.map Prod.snd = lines ++ Comment.typeRows word ∧ ∀ line ∈ lines, Comment.IsDescription line
  param : ∃ p : ParamDecl, m.params = [p] ∧ p.bareName = "x" ∧ p.type = none
  returnType : m.returnType = none

/-! ### The two types -/

namespace TypeUnion

variable {ns word name : Text} {scope : TypeScope}

/-- If no candidate of a type is imported, the type is qualified and nothing else. -/
theorem resolved_of_none (h : ∀ c ∈ candidates word, importOf? scope.imports c = none) :
    scope.resolved word = canonical scope.namespaceName word := by
  rw [canonical_eq_ofCandidates, TypeScope.resolved, List.map_congr_left fun c hc => shown_of_none (h c hc)]

theorem paramType_of_documented {owner : Text} {tag : ParamTag} {p : ParamDecl} (hp : p.type = none)
    (htag : tag.type = canonical ns word) (hword : candidates word ≠ []) :
    paramType owner (some tag) p = canonical ns word := by
  have hne : canonical ns word ≠ [] := by
    intro hnil
    have hnone : candidates (canonical ns word) = [] := by rw [hnil, candidates_nil]
    exact hword (candidates_canonical_eq_nil_iff.mp hnone)
  have htrim : Text.trim (canonical ns word) = canonical ns word := trim_ofCandidates _
  have hnone : ofDeclared? owner p.type = none := by
    rw [hp]
    rfl
  simp only [paramType, Option.elim_some, htag, hnone, Option.isNone_none, Bool.and_true]
  rw [if_neg (by simpa using hne), merge_none, htrim, if_neg hne]

end TypeUnion

namespace Codebase

open TypeUnion

variable {cb : Codebase} {c : ClassDecl} {m : MethodDecl} {word : Text}

theorem read_of_documentsTwice (hm : m.DocumentsTwice word) (hword : Comment.IsTypeWord word) (c : ClassDecl) :
    let ns := ClassName.namespaceOf (ClassName.display c.name)
    (m.read c).inheritsDoc = false ∧ (m.read c).params = [⟨"x", canonical ns word, []⟩] ∧
      (m.read c).returnType = word := by
  obtain ⟨e, rows, closing, lines, hcomment, hrows, hlines⟩ := hm.comment
  rw [MethodDecl.read, hcomment, Option.getD_some]
  exact hword.read_typeRows hlines hrows e closing _

theorem describeParam_type_of_tag (cb : Codebase) (hm : m.DocumentsTwice word) (hword : Comment.IsTypeWord word)
    (c : ClassDecl) :
    ∃ x, (cb.describe c m).params = [x] ∧
      x.type = canonical (ClassName.namespaceOf (ClassName.display c.name)) word := by
  obtain ⟨_, hparams, _⟩ := read_of_documentsTwice hm hword c
  obtain ⟨p, hp, hname, htype⟩ := hm.param
  have htag : (m.read c).param? p.bareName =
      some ⟨"x", canonical (ClassName.namespaceOf (ClassName.display c.name)) word, []⟩ := by
    rw [Comment.param?, hparams, hname]
    exact List.find?_cons_of_pos rfl
  refine ⟨cb.describeParam c (m.read c) p, ?_, ?_⟩
  · rw [describe_params, hp, List.map_singleton]
  · rw [describeParam_type, htag]
    exact paramType_of_documented htype rfl hword.named

theorem describe_returnType_of_tag (cb : Codebase) (hm : m.DocumentsTwice word) (hword : Comment.IsTypeWord word)
    (hself : word ≠ "self") (hstatic : word ≠ "static") (hmethod : m.name ≠ word) (c : ClassDecl) :
    (cb.describe c m).returnType = (⟨ClassName.display c.name, cb.importsOf c⟩ : TypeScope).resolved word := by
  obtain ⟨_, _, hreturn⟩ := read_of_documentsTwice hm hword c
  have htrim : Text.trim word = word := Text.trim_eq_self hword.oneWord
  have hthis : word ≠ "$this" := by
    rintro rfl
    exact hword.notName rfl
  rw [describe_returnType, hreturn, returnType_eq_ofCandidates hm.returnType htrim hword.ne_nil
    (isSelfReference_eq_false htrim hmethod hself hstatic hthis)]
  rfl

/-- **A type that is documented in two tags is shown alike if it is not imported.**  The method is documented.  Its
parameter has the normal form of the type, and what it returns is resolved by the imports before.  So the two agree if no
candidate is imported.  A bare class name with `n` bracket pairs agrees exactly if it is not looked up in the imports or
means the class of the namespace anyway. -/
theorem buildMethod_types_agree (cb : Codebase) (ask : Text → Except DocError (Option ClassDoc)) (c : ClassDecl)
    (m : MethodDecl) (word : Text) (hm : m.DocumentsTwice word) (hword : Comment.IsTypeWord word)
    (hself : word ≠ "self") (hstatic : word ≠ "static") (hmethod : m.name ≠ word) :
    let scope : TypeScope := ⟨ClassName.display c.name, cb.importsOf c⟩
    ∃ doc x, buildMethod cb ask c m = .ok doc ∧ doc.params = [x] ∧
      x.type = canonical scope.namespaceName word ∧ doc.returnType = scope.resolved word ∧
      ((∀ type ∈ candidates word, importOf? scope.imports type = none) → x.type = doc.returnType) ∧
      ∀ name n, word = name ++ brackets n → IsBareName name → Unseparated scope.namespaceName →
        (∀ i ∈ scope.imports, i.Plain) →
        (x.type = doc.returnType ↔ (2 ≤ n ∧ '\\' ∉ name) ∨ scope.fullName name = scope.ownName name) := by
  intro scope
  obtain ⟨hinherits, _, _⟩ := read_of_documentsTwice hm hword c
  obtain ⟨x, hx, hparam⟩ := describeParam_type_of_tag cb hm hword c
  have hreturned : (cb.describe c m).returnType = scope.resolved word :=
    describe_returnType_of_tag cb hm hword hself hstatic hmethod c
  refine ⟨cb.describe c m, x, ?_, hx, hparam, hreturned, ?_, ?_⟩
  · rw [buildMethod, MethodDecl.inheritsDoc, hinherits]
    rfl
  · intro hnone
    rw [hparam, hreturned, resolved_of_none hnone]
    rfl
  · intro name n heq hbare hns himports
    have hown : x.type = scope.ownName name ++ brackets n := by
      rw [hparam, heq]
      exact canonical_brackets hbare hns n
    rw [hown, hreturned, heq, (hbare.isCandidate n).resolved_eq, shown_brackets hbare hns himports,
      List.append_cancel_right_eq]
    split
    · rename_i hdeep
      exact iff_of_true rfl (.inl hdeep)
    · rename_i hdeep
      exact ⟨fun hfull => .inr hfull.symm, fun h => (h.resolve_left hdeep).symm⟩

/-! ### A class with an import -/

/-- A class whose source imports a client. -/
def importer : ClassDecl :=
  { name := "Acme\\Service", source := some "<?php\nuse Vendor\\Lib\\Client;\n" }

def importers : Codebase :=
  ⟨⟨[importer], by decide⟩, ⟨fun _ => .error .missing⟩⟩

/-- No other class is known. -/
def askNobody (_ : Text) : Except DocError (Option ClassDoc) :=
  .ok none

/-- A method that documents a type twice. -/
def connect (word : Text) : MethodDecl :=
  { name := "connect"
    comment := some (Comment.decorate .feed ((Comment.typeRows word).map (Comment.plainMargin, ·))
      Comment.plainMargin.indent)
    params := [{ name := "x" }] }

theorem connect_documentsTwice (word : Text) : (connect word).DocumentsTwice word where
  comment := ⟨.feed, (Comment.typeRows word).map (Comment.plainMargin, ·), Comment.plainMargin.indent, [], rfl, rfl,
    List.forall_mem_nil _⟩
  param := ⟨{ name := "x" }, rfl, by decide, rfl⟩
  returnType := rfl

theorem importsOf_importer : importers.importsOf importer = service.imports := by decide +kernel

/-- A nullable client, numbers and orders are not imported and agree, and so does a list of lists of clients.  The
client alone does not. -/
theorem importer_types_agree :
    let build : Text → Except DocError MethodDoc := fun word => buildMethod importers askNobody importer (connect word)
    (∃ doc x, build "?Client|int[]/Order" = .ok doc ∧ doc.params = [x] ∧ x.type = doc.returnType) ∧
      (∃ doc x, build "Client[][]" = .ok doc ∧ doc.params = [x] ∧ x.type = doc.returnType) ∧
      ∃ doc x, build "Client" = .ok doc ∧ doc.params = [x] ∧ x.type ≠ doc.returnType := by
  intro build
  have hplain : ∀ i ∈ importers.importsOf importer, i.Plain := by
    rw [importsOf_importer]
    exact service_imports_plain
  have hclient : IsBareName "Client" :=
    ⟨by decide, List.all_eq_true.mp (by decide), by decide, by decide, by decide⟩
  refine ⟨?_, ?_, ?_⟩
  · obtain ⟨doc, x, hdoc, hx, -, -, hagree, -⟩ := buildMethod_types_agree importers askNobody importer
      (connect "?Client|int[]/Order") "?Client|int[]/Order" (connect_documentsTwice _)
      (by decide +kernel) (by decide) (by decide) (by decide)
    exact ⟨doc, x, hdoc, hx, hagree (by decide +kernel)⟩
  · obtain ⟨doc, x, hdoc, hx, -, -, -, hbare⟩ := buildMethod_types_agree importers askNobody importer
      (connect "Client[][]") "Client[][]" (connect_documentsTwice _)
      (by decide +kernel) (by decide) (by decide) (by decide)
    have hiff := hbare "Client" 2 (by decide) hclient (by decide +kernel) hplain
    exact ⟨doc, x, hdoc, hx, hiff.mpr (.inl (by decide))⟩
  · obtain ⟨doc, x, hdoc, hx, -, -, -, hbare⟩ := buildMethod_types_agree importers askNobody importer
      (connect "Client") "Client" (connect_documentsTwice _)
      (by decide +kernel) (by decide) (by decide) (by decide)
    have hiff := hbare "Client" 0 (by decide) hclient (by decide +kernel) hplain
    exact ⟨doc, x, hdoc, hx, fun heq => absurd (hiff.mp heq) (by decide +kernel)⟩

/-- The import of the client is not asked for the parameter. -/
theorem parameter_not_imported :
    ∃ doc, buildMethod importers askNobody importer (connect "Client") = .ok doc ∧
      doc.params.map ParamDoc.type = ["\\Acme\\Client".toList] ∧
      doc.returnType = "\\Vendor\\Lib\\Client".toList := by
  refine ⟨importers.describe importer (connect "Client"), ?_, by decide +kernel, by decide +kernel⟩
  rw [buildMethod, if_neg (by decide +kernel)]
  rfl

end Codebase

end ApiPages
