import ApiPages.Proofs.Cell
import ApiPages.Proofs.DocumentedType
import ApiPages.Proofs.ImportedName
import ApiPages.Proofs.Merge
import ApiPages.Proofs.Segment

/-! # The rows of documented methods

A type is joined from candidates, so it has no bars, and it is one line if the names in it are.  A documented type is a
word, hence one line as well; only the path of an import can bring a line break into a return type.  The lines of a
description or a deprecation are joined, so that no line feed is left, and references are made of words.  But nothing is
escaped: a bar in one of these texts, or a bar or a line break in a default value, breaks the row
(`Reached.method_rows`). -/

namespace ApiPages

open SessionM

/-! ### Types on one line -/

theorem ClassName.oneLine_display {name : Text} (h : Text.OneLine name) : Text.OneLine (display name) :=
  h.strip.cons (by decide)

theorem ClassName.oneLine_namespaceOf {name : Text} (h : Text.OneLine name) : Text.OneLine (namespaceOf name) := by
  refine Text.oneLine_join (by decide) fun piece hp => h.of_subset fun x hx => ?_
  have hpiece := List.dropLast_subset _ hp
  rw [List.splitOn_eq_splitOnP] at hpiece
  exact Text.mem_of_mem_strip (Text.mem_of_mem_strip (Text.mem_of_mem_splitOnP hpiece hx))

namespace TypeUnion

variable {ns owner member name s t c documented declared : Text} {ts : List Text} {imports : List Import}

theorem bar_notMem_ofCandidates (ts : List Text) : '|' ∉ ofCandidates ts := by
  intro h
  rcases Text.mem_of_mem_join h with h | ⟨c, hc, h⟩
  · revert h
    decide
  · cases (isCandidate_of_mem_eraseDups hc).unseparated _ h

theorem oneLine_of_mem_candidates (h : Text.OneLine t) (hc : c ∈ candidates t) : Text.OneLine c :=
  h.of_subset fun _ => mem_of_mem_candidates hc

theorem oneLine_ofCandidates (h : ∀ t ∈ ts, Text.OneLine t) : Text.OneLine (ofCandidates ts) := by
  refine Text.oneLine_join (by decide) fun c hc => ?_
  obtain ⟨t, ht, hc⟩ := List.mem_flatMap.mp (List.mem_eraseDups.mp hc)
  exact oneLine_of_mem_candidates (h t ht) hc

theorem fits_union (hs : Text.OneLine s) (ht : Text.OneLine t) : Table.Fits (ofCandidates [s, t]) :=
  ⟨oneLine_ofCandidates (List.forall_mem_cons.mpr ⟨hs, List.forall_mem_singleton.mpr ht⟩), bar_notMem_ofCandidates _⟩

theorem oneLine_qualify (hns : Text.OneLine ns) (hname : Text.OneLine name) : Text.OneLine (qualify ns name) := by
  have hlong : Text.OneLine (Text.strip ClassName.isBackslash ns ++ '\\' :: Text.trim name) :=
    hns.strip.append (hname.strip.cons (by decide))
  simp only [qualify]
  split
  · exact hname.strip
  · split
    · exact ClassName.oneLine_display hname.strip
    · exact ClassName.oneLine_display hlong

theorem oneLine_canonical (hns : Text.OneLine ns) (h : Text.OneLine t) : Text.OneLine (canonical ns t) := by
  refine oneLine_ofCandidates fun q hq => ?_
  obtain ⟨c, hc, hq⟩ := List.mem_flatMap.mp hq
  have hline := oneLine_of_mem_candidates h hc
  unfold expand at hq
  split at hq
  · rcases List.mem_pair.mp hq with rfl | rfl
    · exact oneLine_qualify hns (hline.of_subset fun _ => List.mem_cons_of_mem _)
    · decide
  · obtain rfl := List.mem_singleton.mp hq
    exact oneLine_qualify hns hline

theorem oneLine_ofMember (howner : Text.OneLine owner) (h : Text.OneLine member) :
    Text.OneLine (ofMember owner member) := by
  simp only [ofMember]
  split
  · exact ClassName.oneLine_display howner
  · split
    · exact h
    · exact ClassName.oneLine_display h

theorem fits_ofDeclared {type : DeclaredType} (howner : Text.OneLine owner)
    (h : ∀ member ∈ type.members, Text.OneLine member) : Table.Fits (ofDeclared owner type) := by
  refine ⟨oneLine_ofCandidates fun t ht => ?_, bar_notMem_ofCandidates _⟩
  obtain ⟨member, hmember, ht⟩ := List.mem_flatMap.mp ht
  have hline := h member hmember
  unfold expandMember at ht
  split at ht
  · rcases List.mem_pair.mp ht with rfl | rfl
    · exact oneLine_ofMember howner (hline.of_subset fun _ => List.mem_cons_of_mem _)
    · decide
  · obtain rfl := List.mem_singleton.mp ht
    exact oneLine_ofMember howner hline

theorem oneLine_merge {declared? : Option Text} (hdocumented : Text.OneLine documented)
    (hdeclared : ∀ d ∈ declared?, Text.OneLine d) : Text.OneLine (merge documented declared?) :=
  merge_preserves (by decide) (fun _ ht => ht.strip) (fun _ _ hs ht => (fits_union hs ht).oneLine) hdocumented hdeclared

theorem fits_merge {declared? : Option Text} (hdocumented : Table.Fits documented)
    (hdeclared : ∀ d ∈ declared?, Table.Fits d) : Table.Fits (merge documented declared?) :=
  merge_preserves (by decide) (fun _ ht => ht.of_subset fun _ => Text.mem_of_mem_strip)
    (fun _ _ hs ht => fits_union hs.oneLine ht.oneLine) hdocumented hdeclared

/-! ### Types of parameters and return types -/

/-- The type of a parameter can stand in a cell if the names in it are one line. -/
theorem fits_paramType {tag? : Option ParamTag} {p : ParamDecl} (howner : Text.OneLine owner)
    (htag : ∀ tag ∈ tag?, Table.Fits tag.type)
    (htype : ∀ type ∈ p.type, ∀ member ∈ type.members, Text.OneLine member) :
    Table.Fits (paramType owner tag? p) := by
  have hnatives : ∀ n ∈ natives, Table.Fits n := by decide
  simp only [paramType]
  split
  · exact hnatives _ (impliedType_mem_natives p.default)
  · refine fits_merge ?_ fun d hd => ?_
    · cases tag? with
      | none => exact ⟨by decide, List.not_mem_nil⟩
      | some tag => exact htag tag rfl
    · obtain ⟨_, type, hp, rfl⟩ := exists_of_mem_ofDeclared? hd
      exact fits_ofDeclared howner (htype type hp)

theorem oneLine_resolveCandidate (himports : ∀ i ∈ imports, Text.OneLine i.path) (h : Text.OneLine c) :
    Text.OneLine (resolveCandidate imports c) := by
  cases hi : importOf? imports c with
  | none => rwa [resolveCandidate_of_none hi]
  | some i =>
      rw [← splitArray_fst_append_snd c, Text.oneLine_append_iff] at h
      rw [resolveCandidate_of_some hi]
      have hrest : Text.OneLine ((splitArray c).1.dropWhile (· != '\\')) :=
        h.1.of_subset fun _ hx => List.dropWhile_subset _ hx
      exact ((himports i (mem_of_importOf? hi)).append hrest).append h.2

theorem oneLine_mergedReturn {scope : TypeScope} {m : MethodDecl} (hclass : Text.OneLine scope.className)
    (hdocumented : Text.OneLine documented)
    (htype : ∀ type ∈ m.returnType, ∀ member ∈ type.members, Text.OneLine member) :
    Text.OneLine (mergedReturn scope documented m) := by
  have hdocumented : Text.OneLine (documentedReturn scope m.name documented) := by
    unfold documentedReturn
    split
    · exact hclass
    · exact hdocumented.strip
  have hguess : Text.OneLine (guess m.name) := by
    unfold guess
    split
    · decide
    · split <;> decide
  simp only [mergedReturn]
  split
  · split
    · exact hguess
    · exact oneLine_merge hdocumented fun _ h => by cases h
  · rename_i d hd
    obtain ⟨_, type, hm, rfl⟩ := exists_of_mem_ofDeclared? hd
    refine oneLine_merge hdocumented fun d hd => ?_
    cases hd
    exact (fits_ofDeclared hclass (htype type hm)).oneLine

/-- Only the imports can bring a line break into a return type. -/
theorem oneLine_returnType {scope : TypeScope} {m : MethodDecl} (hclass : Text.OneLine scope.className)
    (himports : ∀ i ∈ scope.imports, Text.OneLine i.path) (hdocumented : Text.OneLine documented)
    (htype : ∀ type ∈ m.returnType, ∀ member ∈ type.members, Text.OneLine member) :
    Text.OneLine (returnType scope documented m) := by
  have hmerged := oneLine_mergedReturn hclass hdocumented htype
  have hresolved : Text.OneLine (resolveImports scope.imports (mergedReturn scope documented m)) := by
    refine oneLine_ofCandidates (List.forall_mem_map.mpr fun c hc => ?_)
    exact oneLine_resolveCandidate himports (oneLine_of_mem_candidates hmerged hc)
  exact oneLine_canonical (ClassName.oneLine_namespaceOf hclass) hresolved

end TypeUnion

/-! ### Comments -/

namespace Segment

variable {s : Segment} {row tag text : Text}

/-- The words of the tag's line are on one line, and no continuation line is broken by a line feed. -/
structure Unbroken (s : Segment) : Prop where
  head : ∀ word ∈ s.head, Text.OneLine word
  lines : ∀ line ∈ s.lines, '\n' ∉ line

theorem Unbroken.push (h : Unbroken s) (hrow : '\n' ∉ row) : Unbroken (s.push row) := by
  refine ⟨h.head, List.forall_mem_append.mpr ⟨h.lines, List.forall_mem_singleton.mpr ?_⟩⟩
  split
  · exact hrow
  · exact fun hc => hrow (Text.mem_of_mem_strip hc)

theorem unbroken_of_mem_ofText (h : s ∈ ofText text) : Unbroken s := by
  have hopen : ∀ tag head, (∃ row ∈ Text.lines text, Text.words row = ('@' :: tag) :: head) →
      Unbroken ⟨tag, head, []⟩ := by
    rintro tag head ⟨row, _, hwords⟩
    refine ⟨fun word hword => ?_, List.forall_mem_nil _⟩
    have hmem : word ∈ Text.words row := hwords ▸ List.mem_cons_of_mem _ hword
    exact Text.oneLine_of_mem_words hmem
  have hpush : ∀ s, ∀ row ∈ Text.lines text, Unbroken s → Continues row → Unbroken (s.push row) :=
    fun _ _ hrow hs _ => hs.push (Text.feed_notMem_of_mem_lines hrow)
  exact forall_mem_collect ⟨List.forall_mem_nil _, List.forall_mem_nil _⟩ hopen hpush s h

theorem Unbroken.oneLine_of_mem_words (h : Unbroken s) {word : Text} (hword : word ∈ s.words) : Text.OneLine word := by
  rcases List.mem_append.mp hword with hword | hword
  · exact h.head word hword
  · obtain ⟨line, _, hword⟩ := List.mem_flatMap.mp hword
    exact Text.oneLine_of_mem_words hword

/-- The text of a segment is put on one line, examples apart.  A carriage return inside of a line stays. -/
theorem Unbroken.feed_notMem_text (h : Unbroken s) (htag : s.tag ≠ exampleTag) : '\n' ∉ s.text := by
  intro hc
  have hc := Text.mem_of_mem_strip hc
  rw [if_neg (by simpa [isVerbatim] using htag)] at hc
  rcases List.mem_append.mp hc with hc | hc
  · exact (Text.oneLine_unwords h.head).noFeed hc
  · obtain ⟨line, hline, hc⟩ := List.mem_flatMap.mp hc
    rcases List.mem_cons.mp hc with hc | hc
    · cases hc
    · exact h.lines line hline hc

theorem Unbroken.oneLine_reference? (h : Unbroken s) {reference : Text} (hr : s.reference? = some reference) :
    Text.OneLine reference := by
  unfold reference? at hr
  split at hr
  · cases hr
  · rename_i first rest hwords
    have hfirst : Text.OneLine first := h.oneLine_of_mem_words (hwords ▸ List.mem_cons_self)
    have hrest : ∀ word ∈ rest, Text.OneLine word := fun word hword =>
      h.oneLine_of_mem_words (hwords ▸ List.mem_cons_of_mem first hword)
    split at hr
    · cases hr
      exact Text.oneLine_unwords (List.forall_mem_cons.mpr ⟨hfirst, hrest⟩)
    · split at hr
      · cases hr
        exact (hfirst.cons (by decide)).append (by decide)
      · cases hr
        have hlabel := ((Text.oneLine_unwords hrest).cons (c := '[') (by decide)).append (t := "](".toList) (by decide)
        exact (hlabel.append hfirst).append (by decide)

theorem Unbroken.oneLine_returned? (h : Unbroken s) {returned : Text × Text} (hr : s.returned? = some returned) :
    Text.OneLine returned.1 := by
  unfold returned? at hr
  split at hr
  · cases hr
  · rename_i type rest hwords
    cases hr
    exact h.oneLine_of_mem_words (hwords ▸ List.mem_cons_self)

end Segment

theorem ParamTag.fits_type_ofSegment? {ns : Text} {s : Segment} {p : ParamTag} (hns : Text.OneLine ns)
    (hs : s.Unbroken) (h : ofSegment? ns s = some p) : Table.Fits p.type := by
  have hcanonical : ∀ type, Text.OneLine type → Table.Fits (TypeUnion.canonical ns type) := fun type htype =>
    ⟨TypeUnion.oneLine_canonical hns htype, TypeUnion.bar_notMem_ofCandidates _⟩
  unfold ofSegment? at h
  split at h
  · rw [type_ofWords? h]
    exact hcanonical _ (by decide)
  · rename_i type name rest _ hhead
    rw [type_ofWords? h]
    exact hcanonical _ (hs.head type (hhead ▸ List.mem_cons_self))
  · cases h

namespace Comment

variable {ns raw : Text}

theorem feed_notMem_textOf {tag : Text} (htag : tag ≠ Segment.exampleTag) (text : Text) :
    '\n' ∉ textOf (Segment.ofText text) tag [' '] := by
  intro hc
  rcases Text.mem_of_mem_join hc with hc | ⟨piece, hpiece, hc⟩
  · revert hc
    decide
  · obtain ⟨s, hs, rfl⟩ := List.mem_map.mp (List.mem_filter.mp hpiece).1
    obtain ⟨hs, hname⟩ := List.mem_filter.mp hs
    have hne : s.tag ≠ Segment.exampleTag := by
      rw [eq_of_beq hname]
      exact htag
    exact (Segment.unbroken_of_mem_ofText hs).feed_notMem_text hne hc

/-- Removing the inline marks brings in no character. -/
theorem mem_of_mem_dropMarks {description : Text} {c : Char} (h : c ∈ dropMarks description) : c ∈ description := by
  have hstep : ∀ mark ∈ inheritMarks, ∀ d : Text, c ∈ Text.trim (Text.replaceAll mark [] d) → c ∈ d := by
    intro mark hmark d hc
    have hne : mark ≠ [] := by
      rintro rfl
      revert hmark
      decide
    exact (Text.mem_of_mem_replaceAll hne (Text.mem_of_mem_strip hc)).resolve_left List.not_mem_nil
  unfold dropMarks at h
  generalize inheritMarks = marks at hstep h
  induction marks generalizing description with
  | nil => exact h
  | cons mark marks ih =>
      obtain ⟨hmark, hmarks⟩ := List.forall_mem_cons.mp hstep
      exact hmark description (ih hmarks h)

theorem feed_notMem_description (ns raw : Text) : '\n' ∉ (read ns raw).description := by
  intro hc
  simp only [read, ofSegments] at hc
  exact feed_notMem_textOf (by decide) (clean raw) (mem_of_mem_dropMarks hc)

theorem feed_notMem_deprecated (ns raw : Text) : '\n' ∉ (read ns raw).deprecated.getD [] := by
  simp only [read, ofSegments]
  split
  · rw [Option.getD_some]
    exact feed_notMem_textOf (by decide) (clean raw)
  · exact List.not_mem_nil

theorem oneLine_of_mem_see (ns raw : Text) : ∀ reference ∈ (read ns raw).see, Text.OneLine reference := by
  intro reference h
  simp only [read, ofSegments] at h
  obtain ⟨s, hs, hr⟩ := List.mem_filterMap.mp h
  exact (Segment.unbroken_of_mem_ofText (List.mem_filter.mp hs).1).oneLine_reference? hr

theorem oneLine_returnType (ns raw : Text) : Text.OneLine (read ns raw).returnType := by
  have hnone : Text.OneLine [] := by decide
  simp only [read, ofSegments]
  split
  · exact hnone
  · unfold returnOf
    cases hr : (tagged (Segment.ofText (clean raw)) "return").findSome? Segment.returned? with
    | none => exact hnone
    | some returned =>
        obtain ⟨s, hs, hr⟩ := List.exists_of_findSome?_eq_some hr
        exact (Segment.unbroken_of_mem_ofText (List.mem_filter.mp hs).1).oneLine_returned? hr

theorem fits_type_of_mem_params {tag : ParamTag} (hns : Text.OneLine ns) (h : tag ∈ (read ns raw).params) :
    Table.Fits tag.type := by
  obtain ⟨s, hs, htag⟩ := exists_segment_of_mem_params h
  exact ParamTag.fits_type_ofSegment? hns (Segment.unbroken_of_mem_ofText hs) htag

end Comment

/-! ### Documented methods -/

/-- The names in a class can stand in a cell: its own, those of its methods and parameters, and those in the declared
types. -/
structure ClassDecl.FitsTable (c : ClassDecl) : Prop where
  name : Table.Fits c.name
  methods : ∀ d ∈ c.methods, Table.Fits d.name
  returnTypes : ∀ d ∈ c.methods, ∀ type ∈ d.returnType, ∀ member ∈ type.members, Table.Fits member
  params : ∀ d ∈ c.methods, ∀ p ∈ d.params, Table.Fits p.name
  paramTypes : ∀ d ∈ c.methods, ∀ p ∈ d.params, ∀ type ∈ p.type, ∀ member ∈ type.members, Table.Fits member

instance : DecidablePred ClassDecl.FitsTable :=
  fun c => decidable_of_iff
    (Table.Fits c.name ∧ (∀ d ∈ c.methods, Table.Fits d.name) ∧
      (∀ d ∈ c.methods, ∀ type ∈ d.returnType, ∀ member ∈ type.members, Table.Fits member) ∧
      (∀ d ∈ c.methods, ∀ p ∈ d.params, Table.Fits p.name) ∧
      ∀ d ∈ c.methods, ∀ p ∈ d.params, ∀ type ∈ p.type, ∀ member ∈ type.members, Table.Fits member)
    ⟨fun ⟨hname, hmethods, hreturns, hparams, htypes⟩ => ⟨hname, hmethods, hreturns, hparams, htypes⟩,
      fun h => ⟨h.name, h.methods, h.returnTypes, h.params, h.paramTypes⟩⟩

namespace Codebase

variable {cb : Codebase} {c : ClassDecl} {d : MethodDecl} {f : MethodDoc}

theorem describeParam_name (cb : Codebase) (c : ClassDecl) (comment : Comment) (p : ParamDecl) :
    (cb.describeParam c comment p).name = '$' :: (Text.trim p.bareName).dropWhile (· == '$') :=
  rfl

theorem fits_describeParam (cb : Codebase) (hc : c.FitsTable) (hd : d ∈ c.methods) {p : ParamDecl} (hp : p ∈ d.params) :
    Table.Fits (cb.describeParam c (d.read c) p).name ∧ Table.Fits (cb.describeParam c (d.read c) p).type := by
  have hclass := ClassName.oneLine_display hc.name.oneLine
  constructor
  · rw [describeParam_name]
    have hname : Table.Fits ((Text.trim p.bareName).dropWhile (· == '$')) :=
      (hc.params d hd p hp).of_subset fun x hx =>
        Text.mem_of_mem_strip (List.dropWhile_subset _ (Text.mem_of_mem_strip (List.dropWhile_subset _ hx)))
    exact ⟨hname.oneLine.cons (by decide), by simp [hname.noBar]⟩
  · rw [describeParam_type]
    refine TypeUnion.fits_paramType hclass (fun tag htag => ?_) fun type htype member hmember =>
      (hc.paramTypes d hd p hp type htype member hmember).oneLine
    exact Comment.fits_type_of_mem_params (ClassName.oneLine_namespaceOf hclass) (Comment.mem_params_of_param? htag)

theorem bar_notMem_describe_returnType (cb : Codebase) (c : ClassDecl) (d : MethodDecl) :
    '|' ∉ (cb.describe c d).returnType := by
  rw [describe_returnType]
  exact TypeUnion.bar_notMem_ofCandidates _

theorem oneLine_describe_returnType (hc : c.FitsTable) (hd : d ∈ c.methods)
    (himports : ∀ i ∈ cb.importsOf c, Text.OneLine i.path) : Text.OneLine (cb.describe c d).returnType := by
  rw [describe_returnType]
  refine TypeUnion.oneLine_returnType (ClassName.oneLine_display hc.name.oneLine) himports
    (Comment.oneLine_returnType _ _) fun type htype member hmember =>
      (hc.returnTypes d hd type htype member hmember).oneLine

theorem describe_name (cb : Codebase) (c : ClassDecl) (d : MethodDecl) : (cb.describe c d).name = d.name :=
  rfl

/-- The names and types of a method are on one line without bars; only its return type may be broken. -/
theorem fits_of_mem_names_describe (cb : Codebase) (hc : c.FitsTable) (hd : d ∈ c.methods) {t : Text}
    (ht : t ∈ Table.names (cb.describe c d)) : t = (cb.describe c d).returnType ∨ Table.Fits t := by
  rw [Table.names, List.mem_cons, List.mem_cons, describe_name, describe_params, List.flatMap_map,
    List.mem_flatMap] at ht
  rcases ht with ht | ht | ⟨p, hp, ht⟩
  · rw [ht]
    exact .inr (hc.methods d hd)
  · exact .inl ht
  · obtain ⟨hname, htype⟩ := fits_describeParam cb hc hd hp
    rcases List.mem_pair.mp ht with ht | ht
    · rw [ht]
      exact .inr htype
    · rw [ht]
      exact .inr hname

/-- The texts of a method: no bars and line breaks in names and types, unless there is a line break in the return type,
and no line feeds in what comes from a comment. -/
structure HasUnbrokenTexts (f : MethodDoc) : Prop where
  names : ∀ t ∈ Table.names f, t = f.returnType ∨ Table.Fits t
  returnType : '|' ∉ f.returnType
  description : '\n' ∉ f.description
  deprecation : '\n' ∉ f.deprecationMessage
  see : ∀ r ∈ f.see, Text.OneLine r

/-- What a comment gives to an item has no line feeds, and the references are one line each. -/
theorem apply_notes (name ns raw : Text) :
    '\n' ∉ (({ name := name } : ItemDoc).apply (Comment.read ns raw)).description ∧
      '\n' ∉ (({ name := name } : ItemDoc).apply (Comment.read ns raw)).deprecationMessage ∧
        ∀ r ∈ (({ name := name } : ItemDoc).apply (Comment.read ns raw)).see, Text.OneLine r := by
  have hdescription := Comment.feed_notMem_description ns raw
  have hdeprecation := Comment.feed_notMem_deprecated ns raw
  have hsee := Comment.oneLine_of_mem_see ns raw
  generalize Comment.read ns raw = comment at hdescription hdeprecation hsee
  exact ⟨hdescription, hdeprecation, hsee⟩

theorem describe_toItemDoc (cb : Codebase) (c : ClassDecl) (d : MethodDecl) :
    (cb.describe c d).toItemDoc = ({ name := d.name } : ItemDoc).apply (d.read c) :=
  rfl

theorem hasUnbrokenTexts_describe (cb : Codebase) (hc : c.FitsTable) (hd : d ∈ c.methods) :
    HasUnbrokenTexts (cb.describe c d) := by
  have hnames := fun t => fits_of_mem_names_describe cb hc hd (t := t)
  have hnotes := apply_notes d.name (ClassName.namespaceOf (ClassName.display c.name)) (d.comment.getD [])
  rw [← MethodDecl.read, ← describe_toItemDoc cb] at hnotes
  exact ⟨hnames, bar_notMem_describe_returnType cb c d, hnotes.1, hnotes.2.1, hnotes.2.2⟩

/-- **The row of a documented method is broken by free texts and imports only.**  If the names of the known classes,
methods and parameters and those in declared types have no bars and line breaks, then the bars of a row are three and
those of the default values, of the description or the deprecation, and of the references that it shows.  It is one line
with three bars exactly if none of these texts has an unescaped bar or a line break and the return type is one line.  A
description and a deprecation have no line feeds and a reference has no line breaks, and the return type is one line if
the paths of all imports are. -/
theorem Reached.method_rows {s s' : Session} {keep : MethodDecl → Bool} {name : Text} {e : ClassDoc}
    (hfits : ∀ c ∈ cb.index.classes, c.FitsTable) (hs : cb.Reached s) (hchain : s.chain = [])
    (h : Returns (cb.documentM keep name) s (.ok e) s') :
    ∀ f ∈ e.methods, ∀ declareAbstract includeSee : Bool,
      (Table.IsRow (Table.row declareAbstract includeSee f) ↔
        Text.OneLine f.returnType ∧
          ∀ t ∈ Table.freeTexts includeSee f, Text.OneLine t ∧ Table.bars (Table.joinTags t) = 0) ∧
      Table.bars (Table.row declareAbstract includeSee f) =
        3 + ((Table.freeTexts includeSee f).map fun t => Table.bars (Table.joinTags t)).sum ∧
      '\n' ∉ f.description ∧ '\n' ∉ f.deprecationMessage ∧ (∀ r ∈ f.see, Text.OneLine r) ∧
      ((∀ c ∈ cb.index.classes, ∀ i ∈ cb.importsOf c, Text.OneLine i.path) → Text.OneLine f.returnType) := by
  intro f hf declareAbstract includeSee
  obtain ⟨c, hc, hb⟩ := hs.exists_buildClass hchain h
  obtain ⟨p, d, hp, hd, heq⟩ :=
    stemsFrom_of_buildClass (fun _ _ _ hp hr => stemsFrom_of_resolve hp hr) hb f hf
  have hmem := mem_classes_of_reaches (ClassIndex.mem_of_find? hc) hp
  have htexts := hasUnbrokenTexts_describe cb (hfits p hmem) hd.mem
  have hreturn := fun himports : ∀ c ∈ cb.index.classes, ∀ i ∈ cb.importsOf c, Text.OneLine i.path =>
    oneLine_describe_returnType (hfits p hmem) hd.mem (himports p hmem)
  -- Ceasing to be abstract changes no text.
  generalize cb.describe p d = g at heq htexts hreturn
  have htexts' : HasUnbrokenTexts f := by
    rcases heq with rfl | rfl
    · exact htexts
    · exact ⟨htexts.names, htexts.returnType, htexts.description, htexts.deprecation, htexts.see⟩
  have hreturn' : (∀ c ∈ cb.index.classes, ∀ i ∈ cb.importsOf c, Text.OneLine i.path) → Text.OneLine f.returnType := by
    rcases heq with rfl | rfl <;> exact hreturn
  exact ⟨Table.isRow_row_iff_of_names htexts'.names htexts'.returnType declareAbstract includeSee,
    Table.bars_row_of_names htexts'.names htexts'.returnType declareAbstract includeSee, htexts'.description,
    htexts'.deprecation, htexts'.see, hreturn'⟩

/-! ### A class with broken rows -/

namespace Lamp

/-- There is a bar in the description and a line break in a default value, and the type is imported by a statement of
two lines. -/
def turn : MethodDecl :=
  { name := "turn"
    comment := some "/** Turns the lamp on|off.\n * @see Lamp::dim\n * @return Shade */"
    params :=
      [{ name := "$on", type := some (.named "?bool"), default := some .null },
        { name := "end", default := some (.string "\n") }] }

/-- An escaped bar does not break the row, and the bars of the types are replaced. -/
def dim : MethodDecl :=
  { name := "dim"
    visibility := .prot
    comment := some "/** Dims \\| darkens.\n * @param int|Level $to\n * @return self|null */"
    params := [{ name := "$to" }] }

def decl : ClassDecl :=
  { name := "Home\\Lamp"
    methods := [dim, turn]
    source := some "class Lamp \x7b\n use Cover,\n Screen \x7b cast as Shade; \x7d\n\x7d" }

/-- The methods with the bars of their rows and whether these are one line. -/
def rows : List (Text × Nat × Bool) :=
  [("turn", 4, false), ("dim", 3, true)]

end Lamp

def lamp : Codebase :=
  ⟨⟨[Lamp.decl], by decide⟩, ⟨fun _ => .error .missing⟩⟩

theorem exists_lamp_document : ∃ e s', Returns (lamp.documentM keepAll "Home\\Lamp") {} (.ok e) s' ∧
    (e.methods.map fun f => (f.name, Table.bars (Table.row true true f), decide (Text.OneLine (Table.row true true f)))) =
      Lamp.rows := by
  have hs : lamp.Reached {} := .start
  have hrows : (lamp.document keepAll "Home\\Lamp").toOption.map (fun e => e.methods.map fun f =>
      (f.name, Table.bars (Table.row true true f), decide (Text.OneLine (Table.row true true f)))) = some Lamp.rows := by
    decide +kernel
  obtain ⟨s', hr, _⟩ := documentM_eq_document keepAll "Home\\Lamp" hs.valid rfl
  cases hd : lamp.document keepAll "Home\\Lamp" with
  | error e =>
      rw [hd] at hrows
      cases hrows
  | ok e =>
      rw [hd] at hr hrows
      exact ⟨e, s', hr, Option.some.inj hrows⟩

/-- The names in the class have no bars and line breaks, and one row of two is not broken. -/
theorem lamp_method_rows :
    ∃ e s', (∀ c ∈ lamp.index.classes, c.FitsTable) ∧ lamp.Reached {} ∧
      Returns (lamp.documentM keepAll "Home\\Lamp") {} (.ok e) s' ∧
      (e.methods.map fun f =>
        (f.name, Table.bars (Table.row true true f), decide (Text.OneLine (Table.row true true f)))) = Lamp.rows ∧
      ∀ f ∈ e.methods, ∀ declareAbstract includeSee : Bool,
        (Table.IsRow (Table.row declareAbstract includeSee f) ↔
          Text.OneLine f.returnType ∧
            ∀ t ∈ Table.freeTexts includeSee f, Text.OneLine t ∧ Table.bars (Table.joinTags t) = 0) ∧
        Table.bars (Table.row declareAbstract includeSee f) =
          3 + ((Table.freeTexts includeSee f).map fun t => Table.bars (Table.joinTags t)).sum ∧
        '\n' ∉ f.description ∧ '\n' ∉ f.deprecationMessage ∧ (∀ r ∈ f.see, Text.OneLine r) ∧
        ((∀ c ∈ lamp.index.classes, ∀ i ∈ lamp.importsOf c, Text.OneLine i.path) → Text.OneLine f.returnType) := by
  have hfits : ∀ c ∈ lamp.index.classes, c.FitsTable := by decide +kernel
  obtain ⟨e, s', hr, hrows⟩ := exists_lamp_document
  exact ⟨e, s', hfits, .start, hr, hrows, Reached.method_rows hfits .start rfl hr⟩

/-- No name has a bar or a line break, but a row has four bars and a line break. -/
theorem lamp_row_broken :
    ∃ e s', (∀ c ∈ lamp.index.classes, c.FitsTable) ∧ lamp.Reached {} ∧
      Returns (lamp.documentM keepAll "Home\\Lamp") {} (.ok e) s' ∧
      ∃ f ∈ e.methods, Table.bars (Table.row true true f) = 4 ∧ ¬ Text.OneLine (Table.row true true f) := by
  have hfits : ∀ c ∈ lamp.index.classes, c.FitsTable := by decide +kernel
  obtain ⟨e, s', hr, hrows⟩ := exists_lamp_document
  have hturn : ("turn".toList, 4, false) ∈ Lamp.rows := List.mem_cons_self
  rw [← hrows, List.mem_map] at hturn
  obtain ⟨f, hf, hrow⟩ := hturn
  rw [Prod.mk.injEq, Prod.mk.injEq] at hrow
  exact ⟨e, s', hfits, .start, hr, f, hf, hrow.2.1, of_decide_eq_false hrow.2.2⟩

end Codebase

end ApiPages
