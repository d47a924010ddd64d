import ApiPages.Proofs.Failure
import ApiPages.Proofs.TypeUnion

/-! # The types of documented methods

The type of a parameter comes from a comment, a declaration, a default value, or two of them merged; a return
type also goes through the imports of the source.  Each of these steps gives a well-formed type, whatever the
comment and the source say: only the names of classes and the declared types of parameters have to be free of
separators. -/

namespace ApiPages

open SessionM

/-! ### Declared types -/

namespace TypeUnion

variable {owner member s t : Text}

theorem qualified_ofMember (howner : Unseparated owner) (hsep : Unseparated member)
    (hlast : ∀ x ∈ member.getLast?, ClassName.isOuter x = false) : Qualified (ofMember owner member) := by
  simp only [ofMember]
  split
  · exact qualified_display howner
  · split
    · rename_i hnative
      refine qualified_of_unseparated hsep fun href => ?_
      rw [isClassReference_eq_false_of_isNative hnative hlast] at href
      cases href
    · exact qualified_display hsep

theorem qualified_of_mem_expandMember (howner : Unseparated owner) (hsep : Unseparated member)
    (hlast : ∀ x ∈ member.getLast?, ClassName.isOuter x = false) (h : t ∈ expandMember owner member) :
    Qualified t := by
  unfold expandMember at h
  split at h
  case h_1 inner =>
    rcases List.mem_pair.mp h with rfl | rfl
    · refine qualified_ofMember howner (fun x hx => hsep x (List.mem_cons_of_mem _ hx)) fun x hx => ?_
      refine hlast x ?_
      rw [Option.mem_def] at hx ⊢
      rw [List.getLast?_cons, hx]
      rfl
    · exact qualified_of_mem_natives (by decide)
  case h_2 =>
    obtain rfl := List.mem_singleton.mp h
    exact qualified_ofMember howner hsep hlast

end TypeUnion

/-- The members of a declared type have no separators, and none ends in a backslash. -/
def DeclaredType.Plain (type : DeclaredType) : Prop :=
  ∀ m ∈ type.members, TypeUnion.Unseparated m ∧ m.getLast? ≠ some '\\'

instance : DecidablePred DeclaredType.Plain :=
  fun type => List.decidableBAll (fun m => TypeUnion.Unseparated m ∧ m.getLast? ≠ some '\\') type.members

theorem DeclaredType.trim_of_mem_members {type : DeclaredType} {m : Text} (h : m ∈ type.members) :
    Text.trim m = m := by
  cases type with
  | named name =>
      obtain ⟨piece, _, rfl⟩ := List.mem_map.mp (List.mem_filter.mp h).1
      exact Text.trim_trim piece
  | union names =>
      obtain ⟨piece, _, rfl⟩ := List.mem_map.mp (List.mem_filter.mp h).1
      exact Text.trim_trim piece

namespace TypeUnion

variable {owner documented declared s t : Text}

theorem wellFormed_ofDeclared {type : DeclaredType} (howner : Unseparated owner) (h : type.Plain) :
    WellFormed (ofDeclared owner type) := by
  refine wellFormed_ofCandidates fun t ht => ?_
  obtain ⟨m, hm, ht⟩ := List.mem_flatMap.mp ht
  obtain ⟨hsep, hslash⟩ := h m hm
  refine qualified_of_mem_expandMember howner hsep (fun x hx => ?_) ht
  have hblank := (Text.stripped_strip Text.isBlank m).last x
  rw [← Text.trim, DeclaredType.trim_of_mem_members hm] at hblank
  rw [ClassName.isOuter, hblank hx, Bool.or_false, beq_eq_false_iff_ne]
  rintro rfl
  exact hslash hx

/-! ### Merged types -/

/-- A well-formed type with at least one candidate. -/
structure IsType (t : Text) : Prop where
  wellFormed : WellFormed t
  ne_nil : t ≠ []

theorem isType_of_mem_natives (h : t ∈ natives) : IsType t :=
  ⟨wellFormed_of_mem_natives h, by rintro rfl; revert h; decide⟩

theorem IsType.exists_candidate (h : IsType t) : ∃ c, c ∈ candidates t := by
  refine List.exists_mem_of_ne_nil _ fun hnil => h.ne_nil ?_
  rw [← h.wellFormed.joined, hnil]
  rfl

/-- A type that is made of another one among others is not empty. -/
theorem isType_ofCandidates {ts : List Text} (h : ∀ t ∈ ts, WellFormed t) (hd : IsType declared)
    (hmem : declared ∈ ts) : IsType (ofCandidates ts) := by
  refine ⟨wellFormed_ofCandidates fun t ht => (h t ht).qualified, fun hnil => ?_⟩
  obtain ⟨c, hc⟩ := hd.exists_candidate
  have hin : c ∈ candidates (ofCandidates ts) := by
    rw [candidates_ofCandidates, List.mem_eraseDups]
    exact List.mem_flatMap.mpr ⟨declared, hmem, hc⟩
  rw [hnil] at hin
  cases hin

theorem isType_merge {declared? : Option Text} (hdoc : WellFormed documented)
    (hdecl : ∀ d ∈ declared?, IsType d) : IsType (merge documented declared?) := by
  simp only [merge, hdoc.trim_eq]
  cases declared? with
  | none =>
      simp only [Option.map_none, Option.filter_none]
      split
      · exact isType_of_mem_natives (by decide)
      · rename_i hne
        exact ⟨hdoc, by simpa using hne⟩
  | some d =>
      have hd := hdecl d rfl
      have hfilter : ((some d).map Text.trim).filter (fun d => !d.isEmpty) = some d := by
        rw [Option.map_some, hd.wellFormed.trim_eq]
        simp [Option.filter, hd.ne_nil]
      simp only [hfilter]
      split
      case isTrue h =>
        refine ⟨hdoc, ?_⟩
        rintro rfl
        rcases h with h | ⟨_, h⟩
        · exact hd.ne_nil h.symm
        · cases h
      case isFalse =>
        split
        · exact hd
        · split
          · exact hd
          · refine isType_ofCandidates ?_ hd (by simp)
            exact List.forall_mem_cons.mpr ⟨hdoc, List.forall_mem_singleton.mpr hd.wellFormed⟩

theorem exists_of_mem_ofDeclared? {type? : Option DeclaredType} (h : declared ∈ ofDeclared? owner type?) :
    declared ≠ [] ∧ ∃ type ∈ type?, declared = ofDeclared owner type := by
  rw [ofDeclared?, Option.mem_def, Option.filter_eq_some_iff, Option.map_eq_some_iff] at h
  obtain ⟨⟨type, htype, rfl⟩, hne⟩ := h
  exact ⟨by simpa using hne, type, htype, rfl⟩

theorem isType_of_ofDeclared? {type? : Option DeclaredType} (howner : Unseparated owner)
    (h : ∀ type ∈ type?, type.Plain) (hd : declared ∈ ofDeclared? owner type?) : IsType declared := by
  obtain ⟨hne, type, htype, rfl⟩ := exists_of_mem_ofDeclared? hd
  exact ⟨wellFormed_ofDeclared howner (h type htype), hne⟩

/-- The type that a default value implies is native. -/
theorem impliedType_mem_natives (value? : Option DefaultValue) :
    (value?.bind DefaultValue.impliedType?).getD "mixed" ∈ natives := by
  cases value? with
  | none => decide
  | some value => cases value <;> simp only [Option.bind_some, DefaultValue.impliedType?] <;> decide

theorem isType_paramType {tag? : Option ParamTag} {p : ParamDecl} (howner : Unseparated owner)
    (htag : ∀ tag ∈ tag?, WellFormed tag.type) (htype : ∀ type ∈ p.type, type.Plain) :
    IsType (paramType owner tag? p) := by
  simp only [paramType]
  split
  · -- Nothing is documented or declared, so the default value decides.
    exact isType_of_mem_natives (impliedType_mem_natives p.default)
  · refine isType_merge ?_ fun d => isType_of_ofDeclared? howner htype
    cases tag? with
    | none =>
        have hnone : ∀ t ∈ ([] : List Text), Qualified t := List.forall_mem_nil _
        exact wellFormed_ofCandidates hnone
    | some tag => exact htag tag rfl

end TypeUnion

/-! ### Types in comments -/

namespace ParamTag

theorem mem_foldl_upsert {q : ParamTag} {tags ps : List ParamTag}
    (h : q ∈ tags.foldl (fun ps p => p.upsert ps) ps) : q ∈ tags ∨ q ∈ ps := by
  induction tags generalizing ps with
  | nil => exact .inr h
  | cons p tags ih =>
      rcases ih h with h | h
      · exact .inl (List.mem_cons_of_mem p h)
      · rcases mem_of_mem_upsertBy h with rfl | h
        · exact .inl List.mem_cons_self
        · exact .inr h

theorem type_ofWords? {ns type word : Text} {rest lines : List Text} {p : ParamTag}
    (h : ofWords? ns type word rest lines = some p) : p.type = TypeUnion.canonical ns type := by
  simp only [ofWords?] at h
  split at h
  · cases h
  · cases h
    rfl

/-- The type of a parameter tag is a normal form. -/
theorem exists_type_ofSegment? {ns : Text} {s : Segment} {p : ParamTag} (h : ofSegment? ns s = some p) :
    ∃ type, p.type = TypeUnion.canonical ns type := by
  unfold ofSegment? at h
  split at h
  · exact ⟨_, type_ofWords? h⟩
  · exact ⟨_, type_ofWords? h⟩
  · cases h

end ParamTag

namespace Comment

theorem mem_params_of_param? {comment : Comment} {name : Text} {tag : ParamTag}
    (h : comment.param? name = some tag) : tag ∈ comment.params :=
  List.mem_of_find?_eq_some h

theorem exists_segment_of_mem_params {ns raw : Text} {tag : ParamTag} (h : tag ∈ (read ns raw).params) :
    ∃ s ∈ Segment.ofText (clean raw), ParamTag.ofSegment? ns s = some tag := by
  simp only [read, ofSegments] at h
  split at h
  · cases h
  · rcases ParamTag.mem_foldl_upsert h with h | h
    · obtain ⟨s, hs, htag⟩ := List.mem_filterMap.mp h
      exact ⟨s, (List.mem_filter.mp hs).1, htag⟩
    · cases h

/-- Every parameter of a comment has a normal form as its type. -/
theorem exists_type_of_mem_params {ns raw : Text} {tag : ParamTag} (h : tag ∈ (read ns raw).params) :
    ∃ type, tag.type = TypeUnion.canonical ns type := by
  obtain ⟨s, _, hs⟩ := exists_segment_of_mem_params h
  exact ParamTag.exists_type_ofSegment? hs

end Comment

/-! ### Documented methods -/

theorem ClassName.unseparated_namespaceOf {name : Text} (h : TypeUnion.Unseparated name) :
    TypeUnion.Unseparated (namespaceOf name) := by
  intro x hx
  rcases Text.mem_of_mem_join hx with hx | ⟨piece, hp, hx⟩
  · obtain rfl := List.mem_singleton.mp hx
    decide
  · have hpath := Text.mem_join_of_mem ['\\'] (List.dropLast_subset _ hp) hx
    rw [Text.join, List.intercalate_splitOn] at hpath
    exact h x (Text.mem_of_mem_strip (Text.mem_of_mem_strip hpath))

/-- A class whose name and whose parameters' declared types have no separators. -/
structure ClassDecl.Plain (c : ClassDecl) : Prop where
  name : TypeUnion.Unseparated c.name
  params : ∀ d ∈ c.methods, ∀ p ∈ d.params, ∀ type ∈ p.type, type.Plain

instance : DecidablePred ClassDecl.Plain :=
  fun c => decidable_of_iff
    (TypeUnion.Unseparated c.name ∧ ∀ d ∈ c.methods, ∀ p ∈ d.params, ∀ type ∈ p.type, type.Plain)
    ⟨fun ⟨hname, hparams⟩ => ⟨hname, hparams⟩, fun h => ⟨h.name, h.params⟩⟩

namespace Codebase

variable {cb : Codebase} {c p : ClassDecl} {d : MethodDecl}

theorem describe_returnType (cb : Codebase) (c : ClassDecl) (d : MethodDecl) :
    (cb.describe c d).returnType =
      TypeUnion.returnType ⟨ClassName.display c.name, cb.importsOf c⟩ (d.read c).returnType d := by
  rw [describe]

theorem describe_params (cb : Codebase) (c : ClassDecl) (d : MethodDecl) :
    (cb.describe c d).params = d.params.map (cb.describeParam c (d.read c)) :=
  rfl

theorem describeParam_type (cb : Codebase) (c : ClassDecl) (comment : Comment) (p : ParamDecl) :
    (cb.describeParam c comment p).type =
      TypeUnion.paramType (ClassName.display c.name) (comment.param? p.bareName) p :=
  rfl

theorem wellFormed_describe_returnType (cb : Codebase) (hc : c.Plain) (d : MethodDecl) :
    TypeUnion.WellFormed (cb.describe c d).returnType := by
  rw [describe_returnType, TypeUnion.returnType]
  exact TypeUnion.wellFormed_canonical (ClassName.unseparated_namespaceOf hc.name.display) _

theorem isType_describe_params (cb : Codebase) (hc : c.Plain) (hd : d ∈ c.methods) :
    ∀ x ∈ (cb.describe c d).params, TypeUnion.IsType x.type := by
  intro x hx
  rw [describe_params] at hx
  obtain ⟨p, hp, rfl⟩ := List.mem_map.mp hx
  rw [describeParam_type]
  refine TypeUnion.isType_paramType hc.name.display ?_ (hc.params d hd p hp)
  intro tag htag
  obtain ⟨type, htype⟩ := Comment.exists_type_of_mem_params (Comment.mem_params_of_param? htag)
  rw [htype]
  exact TypeUnion.wellFormed_canonical (ClassName.unseparated_namespaceOf hc.name.display) type

/-- The methods of a class that is documented for another one stem from declarations. -/
theorem stemsFrom_of_resolve {chain : List Text} {name : Text} {doc : ClassDoc}
    (hf : cb.index.find? name = some p) (h : cb.resolve chain name = .ok (some doc)) :
    ∀ f ∈ doc.methods, cb.StemsFrom p f := by
  induction chain, name using resolve.induct cb generalizing p doc with
  | case1 chain name hk =>
      rw [resolve_cycle hk] at h
      cases h
  | case2 chain name hk hnone =>
      rw [hnone] at hf
      cases hf
  | case3 chain name hk c hc ih =>
      rw [hc] at hf
      cases hf
      obtain ⟨_, heq, hb⟩ := buildClass_of_resolve hc h
      cases heq
      exact stemsFrom_of_buildClass (fun n _ _ hp hr => ih n hp hr) hb

/-- **All types of a documented class are well formed.**  They are made of distinct candidates with one `/`
between neighbours, none is empty or has white space around it, and all class names among them are absolute;
the types of parameters have at least one candidate.  This holds of every comment, every source text and every
declared return type, if the names of the known classes and the declared types of parameters have no
separators. -/
theorem Reached.types_well_formed {s s' : Session} {keep : MethodDecl → Bool} {name : Text}
    {e : ClassDoc} (hplain : ∀ c ∈ cb.index.classes, c.Plain) (hs : cb.Reached s)
    (hchain : s.chain = []) (h : Returns (cb.documentM keep name) s (.ok e) s') :
    ∀ f ∈ e.methods, TypeUnion.WellFormed f.returnType ∧
      ∀ x ∈ f.params, TypeUnion.WellFormed x.type ∧ x.type ≠ [] := by
  intro f hf
  obtain ⟨c, hc, hb⟩ := hs.exists_buildClass hchain h
  obtain ⟨p, d, hp, hd, heq⟩ :=
    stemsFrom_of_buildClass (fun _ _ _ hp hr => stemsFrom_of_resolve hp hr) hb f hf
  have hknown := hplain p (mem_classes_of_reaches (ClassIndex.mem_of_find? hc) hp)
  have hreturn := wellFormed_describe_returnType cb hknown d
  have hparams : ∀ x ∈ (cb.describe p d).params, TypeUnion.WellFormed x.type ∧ x.type ≠ [] := by
    intro x hx
    have htype := isType_describe_params cb hknown hd.mem x hx
    exact ⟨htype.wellFormed, htype.ne_nil⟩
  -- Ceasing to be abstract changes no type.
  generalize cb.describe p d = g at heq hreturn hparams
  rcases heq with rfl | rfl
  · exact ⟨hreturn, hparams⟩
  · exact ⟨hreturn, hparams⟩

/-! ### A class with untidy types -/

namespace Shop

/-- Types with stray separators, repeats, nullable and native names, and a trailing backslash in the comment. -/
def add : MethodDecl :=
  { name := "add"
    comment := some
      "/**
        * @param Item||?\\Shop\\Item/item\\ $item what to add
        * @param ?|/ $count
        * @return $this|Price[]|?int||Money\\
        */"
    params :=
      [{ name := "$item", type := some (.named "?self|\\INT| Item ") }, { name := "count" },
        { name := "note", default := some (.string "none") }]
    returnType := some (.union ["static", "?", "a|b\\"]) }

def base : ClassDecl :=
  { name := "Shop\\Base", methods := [add], source := some "use Bank\\\x7bMoney, Price as price\x7d;" }

def cart : ClassDecl :=
  { name := "\\Shop\\Cart", parent := some "Shop\\Base",
    methods := [{ name := "ADD", comment := some "/** @inheritDoc */" }] }

/-- The return type of the method as it is documented, and the types of its parameters. -/
def types : Text × List Text :=
  ("$this/\\Bank\\Price[]/int/null/\\Bank\\Money/\\Shop\\Base/\\/\\a/\\Shop\\b",
    ["\\Shop\\Item/null/\\Shop\\item/\\Shop\\Base/\\INT/\\Item", "null", "string"])

end Shop

def shop : Codebase :=
  ⟨⟨[Shop.cart, Shop.base], by decide⟩, ⟨fun _ => .error .missing⟩⟩

/-- A method is inherited, and all its types are well formed. -/
theorem shop_types_well_formed :
    ∃ e s', (∀ c ∈ shop.index.classes, c.Plain) ∧ shop.Reached {} ∧
      Returns (shop.documentM keepAll "Shop\\Cart") {} (.ok e) s' ∧
      (e.methods.map fun f => (f.returnType, f.params.map (·.type))) = [Shop.types] ∧
      ∀ f ∈ e.methods, TypeUnion.WellFormed f.returnType ∧
        ∀ x ∈ f.params, TypeUnion.WellFormed x.type ∧ x.type ≠ [] := by
  have hplain : ∀ c ∈ shop.index.classes, c.Plain := by decide +kernel
  have hs : shop.Reached {} := .start
  have htypes : (shop.document keepAll "Shop\\Cart").toOption.map
      (fun e => e.methods.map fun f => (f.returnType, f.params.map (·.type))) = some [Shop.types] := by
    decide +kernel
  obtain ⟨s', hr, _⟩ := documentM_eq_document keepAll "Shop\\Cart" hs.valid rfl
  cases hd : shop.document keepAll "Shop\\Cart" with
  | error e =>
      rw [hd] at htypes
      cases htypes
  | ok e =>
      rw [hd] at hr htypes
      exact ⟨e, s', hplain, hs, hr, Option.some.inj htypes, hs.types_well_formed hplain rfl hr⟩

end Codebase

end ApiPages
