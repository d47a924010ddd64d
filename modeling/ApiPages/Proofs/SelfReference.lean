import ApiPages.Proofs.MissingType

/-! # Unions that name their own class

A comment documents a union as one text, and a signature declares it as a list of members.  Both become the union of
what their members are shown as (`returnType_join`, `returnType_of_declared`).  A native type and an absolute class name
are shown alike in both (`IsMember.shown_eq`).

The names `self` and `static` stand for the class of the method in both, but they are looked for at different places: in
each member of a declared union, and only in the whole text of a documented one.  So a documented union with other
members keeps these names, and they are then read as classes of the namespace (`returnType_union`,
`documented_self_kept`). -/

namespace ApiPages

namespace TypeUnion

variable {c owner name : Text} {members : List Text} {scope : TypeScope} {m : MethodDecl}

/-! ### Members -/

/-- A name by which a class refers to itself, in any letter case. -/
def NamesSelf (name : Text) : Prop :=
  Text.lower name = "self" ∨ Text.lower name = "static"

instance : DecidablePred NamesSelf :=
  fun name => inferInstanceAs (Decidable (Text.lower name = "self" ∨ Text.lower name = "static"))

/-- A member without the mark of a nullable type. -/
def unmarked : Text → Text
  | '?' :: inner => inner
  | member => member

/-- What the mark of a nullable type adds to a union. -/
def markedNull : Text → List Text
  | '?' :: _ => ["null"]
  | _ => []

/-- A name that needs no namespace: that of a native type, of the own class, or an absolute one. -/
structure IsMember (name : Text) : Prop where
  chars : ∀ x ∈ name, Text.isBlank x = false ∧ isSeparator x = false
  kind : isNative name = true ∧ name.getLast? ≠ some '\\' ∨ NamesSelf name ∨
    name.head? = some '\\' ∧ isClassReference name = true

instance : DecidablePred IsMember :=
  fun name => decidable_of_iff
    ((name.all fun x => !Text.isBlank x && !isSeparator x) = true ∧
      (isNative name = true ∧ name.getLast? ≠ some '\\' ∨ NamesSelf name ∨
        name.head? = some '\\' ∧ isClassReference name = true))
    ⟨fun h => ⟨by simpa using h.1, h.2⟩, fun h => ⟨by simpa using h.chars, h.kind⟩⟩

theorem unmarked_cases (c : Text) :
    c = '?' :: unmarked c ∧ markedNull c = [("null" : Text)] ∨
      c.head? ≠ some '?' ∧ unmarked c = c ∧ markedNull c = [] := by
  unfold unmarked markedNull
  split
  · exact .inl ⟨rfl, rfl⟩
  · rename_i hmark
    refine .inr ⟨fun hhead => ?_, rfl, rfl⟩
    obtain ⟨rest, rfl⟩ := List.head?_eq_some_iff.mp hhead
    exact hmark rest rfl

theorem expand_eq (ns c : Text) : expand ns c = qualify ns (unmarked c) :: markedNull c := by
  unfold expand
  split
  · rfl
  · rename_i hmark
    rcases unmarked_cases c with ⟨hc, _⟩ | ⟨_, hc, hnull⟩
    · exact (hmark _ hc).elim
    · rw [hc, hnull]

theorem expandMember_eq (owner c : Text) : expandMember owner c = ofMember owner (unmarked c) :: markedNull c := by
  unfold expandMember
  split
  · rfl
  · rename_i hmark
    rcases unmarked_cases c with ⟨hc, _⟩ | ⟨_, hc, hnull⟩
    · exact (hmark _ hc).elim
    · rw [hc, hnull]

namespace IsMember

theorem ne_nil (h : IsMember name) : name ≠ [] := by
  rintro rfl
  exact absurd h.kind (by decide)

theorem isCandidate (h : IsMember name) : IsCandidate name :=
  ⟨h.ne_nil, Text.trim_eq_self fun x hx => (h.chars x hx).1, fun x hx => (h.chars x hx).2⟩

theorem isCandidate_of_unmarked (h : IsMember (unmarked c)) : IsCandidate c := by
  rcases unmarked_cases c with ⟨hc, _⟩ | ⟨_, hc, _⟩
  · have hchars : ∀ x ∈ c, Text.isBlank x = false ∧ isSeparator x = false := by
      rw [hc]
      exact List.forall_mem_cons.mpr ⟨by decide, h.chars⟩
    refine ⟨?_, Text.trim_eq_self fun x hx => (hchars x hx).1, fun x hx => (hchars x hx).2⟩
    rw [hc]
    exact List.cons_ne_nil _ _
  · rw [hc] at h
    exact h.isCandidate

/-- A class name other than that of the own class is absolute. -/
theorem head?_of_isClassReference (h : IsMember name) (hself : ¬ NamesSelf name) (href : isClassReference name = true) :
    name.head? = some '\\' := by
  rcases h.kind with ⟨hnative, hlast⟩ | hown | ⟨hhead, _⟩
  · have houter : ∀ x ∈ name.getLast?, ClassName.isOuter x = false := by
      intro x hx
      rw [ClassName.isOuter, (h.chars x (List.mem_of_getLast? hx)).1, Bool.or_false, beq_eq_false_iff_ne]
      rintro rfl
      exact hlast hx
    rw [isClassReference_eq_false_of_isNative hnative houter] at href
    cases href
  · exact absurd hown hself
  · exact hhead

theorem isNative_of_isClassReference (h : IsMember name) (hself : ¬ NamesSelf name)
    (href : isClassReference name = false) : isNative name = true := by
  rcases h.kind with ⟨hnative, _⟩ | hown | ⟨_, href'⟩
  · exact hnative
  · exact absurd hown hself
  · rw [href] at href'
    cases href'

theorem importOf?_eq_none (h : IsMember name) (hself : ¬ NamesSelf name) (imports : List Import) :
    importOf? imports name = none := by
  rw [importOf?, if_pos]
  by_cases href : isClassReference name = true
  · exact .inl (h.head?_of_isClassReference hself href)
  · simp [href]

theorem shown_eq_qualify (h : IsMember name) (hself : ¬ NamesSelf name) :
    scope.shown name = qualify scope.namespaceName name := by
  have hc := h.isCandidate
  rw [shown_of_none (h.importOf?_eq_none hself scope.imports)]
  by_cases href : isClassReference name = true
  · have hhead := h.head?_of_isClassReference hself href
    rw [hc.canonical_rooted hhead, if_pos href]
    simp [qualify, hc.trimmed, href, hhead]
  · have href' : isClassReference name = false := by simpa using href
    have hqualify : qualify scope.namespaceName name = name := by simp [qualify, hc.trimmed, href']
    rw [hc.canonical_eq_expand, expand_of_head (head?_ne_mark (fun x hx => (h.chars x hx).1) href'), hqualify,
      hc.ofCandidates_eq]

theorem resolved_ofMember (h : IsMember name) (hself : ¬ NamesSelf name) :
    scope.resolved (ofMember owner name) = qualify scope.namespaceName name := by
  have hc := h.isCandidate
  unfold NamesSelf at hself
  simp only [ofMember, if_neg hself]
  split
  · rw [hc.resolved_eq, h.shown_eq_qualify hself]
  · rename_i hnative
    -- the name is absolute, and it is put into the form that is shown before it is qualified
    have href : isClassReference name = true := by
      by_contra hno
      exact hnative (h.isNative_of_isClassReference hself (by simpa using hno))
    have hhead := h.head?_of_isClassReference hself href
    have hnone : importOf? scope.imports (ClassName.display name) = none := by
      rw [importOf?, if_pos (.inl rfl)]
    rw [(isCandidate_display hc.unseparated).resolved_eq, shown_of_none hnone,
      canonical_of_display (ClassName.display_display name) hc.unseparated.display]
    simp [qualify, hc.trimmed, href, hhead]

/-- A member is shown alike whether it is documented or declared. -/
theorem shown_eq (h : IsMember (unmarked c)) (hself : ¬ NamesSelf (unmarked c)) :
    scope.shown c = ofCandidates ((expandMember owner c).map scope.resolved) := by
  have hnull : (markedNull c).map scope.resolved = markedNull c := by
    rcases unmarked_cases c with ⟨_, hmark⟩ | ⟨_, _, hmark⟩
    · have hnative : ("null" : Text) ∈ natives := by decide
      rw [hmark, List.map_singleton, (isCandidate_of_mem_natives hnative).resolved_eq, shown_of_mem_natives hnative]
    · rw [hmark, List.map_nil]
  have hnone : importOf? scope.imports c = none := by
    rcases unmarked_cases c with ⟨hc, _⟩ | ⟨_, hc, _⟩
    · rw [importOf?, if_pos (.inr (.inl (by rw [hc]; rfl)))]
    · rw [hc] at h hself
      exact h.importOf?_eq_none hself scope.imports
  rw [shown_of_none hnone, h.isCandidate_of_unmarked.canonical_eq_expand, expand_eq, expandMember_eq, List.map_cons,
    hnull, h.resolved_ofMember hself]

end IsMember

/-! ### Two ways to write a union -/

theorem resolved_ofCandidates (scope : TypeScope) (ts : List Text) :
    scope.resolved (ofCandidates ts) = ofCandidates (ts.map scope.resolved) := by
  rw [TypeScope.resolved, candidates_ofCandidates, List.map_eq_flatMap, ofCandidates_flatMap_eraseDups,
    List.flatMap_assoc, ofCandidates_flatMap]
  simp only [← List.map_eq_flatMap]
  rfl

theorem members_union (h : ∀ c ∈ members, IsCandidate c) : (DeclaredType.union members).members = members := by
  rw [DeclaredType.members, filter_map_trim h]

theorem merge_nil {declared : Text} (htrim : Text.trim declared = declared) (hne : declared ≠ []) :
    merge [] (some declared) = declared := by
  have hsome : ((some declared).map Text.trim).filter (fun d => !d.isEmpty) = some declared := by
    rw [Option.map_some, htrim, Option.filter_some, if_pos (by simpa using hne)]
  have hpair : Text.endsWith (Text.trim []) "[]" = false := by decide
  simp only [merge, hsome, hpair]
  rw [if_neg, if_pos (by decide)]
  rintro (hnil | ⟨_, hend⟩)
  · exact hne hnil.symm
  · cases hend

theorem mergedReturn_of_declared {type : DeclaredType} (hname : m.name ≠ []) (hmembers : type.members ≠ []) :
    mergedReturn scope [] { m with returnType := some type } = ofDeclared scope.className type := by
  have hself : isSelfReference [] m.name = false :=
    isSelfReference_eq_false rfl hname (by decide) (by decide) (by decide)
  have hne : ofDeclared scope.className type ≠ [] := by
    intro hnil
    refine hmembers ((candidates_ofDeclared_eq_nil_iff scope.className).mp ?_)
    rw [hnil, candidates_nil]
  have hsome : ofDeclared? scope.className (some type) = some (ofDeclared scope.className type) := by
    rw [ofDeclared?, Option.map_some, Option.filter_some, if_pos (by simpa using hne)]
  have hsaid : documentedReturn scope m.name [] = [] := by
    rw [documentedReturn, hself]
    rfl
  simp only [mergedReturn, hsome, hsaid]
  exact merge_nil (trim_ofCandidates _) hne

theorem returnType_of_declared (hname : m.name ≠ []) (hne : members ≠ []) (hmembers : ∀ c ∈ members, IsCandidate c) :
    returnType scope [] { m with returnType := some (.union members) } =
      ofCandidates (members.flatMap fun c => (expandMember scope.className c).map scope.resolved) := by
  have hread := members_union hmembers
  rw [returnType_eq_resolved, mergedReturn_of_declared hname (hread.symm ▸ hne), ofDeclared, hread,
    resolved_ofCandidates, List.map_flatMap]

/-- A documented union is shown member by member, unless it means the class as a whole. -/
theorem returnType_join (hne : members ≠ []) (hmembers : ∀ c ∈ members, IsCandidate c)
    (hself : isSelfReference (Text.join ['|'] members) m.name = false) :
    returnType scope (Text.join ['|'] members) { m with returnType := none } =
      ofCandidates (members.map scope.shown) := by
  have hread : candidates (Text.join ['|'] members) = members := candidates_join (by decide) hmembers
  have hjoin : Text.join ['|'] members ≠ [] := by
    intro hnil
    rw [hnil, candidates_nil] at hread
    exact hne hread.symm
  rw [returnType_eq_ofCandidates (m := { m with returnType := none }) rfl (trim_join _ hmembers) hjoin hself, hread]

/-- One member alone, by which a comment can refer to the class. -/
def IsOwnClass (members : List Text) : Prop :=
  members = [("self" : Text)] ∨ members = [("static" : Text)]

instance : DecidablePred IsOwnClass :=
  fun members => inferInstanceAs (Decidable (members = [("self" : Text)] ∨ members = [("static" : Text)]))

theorem isSelfReference_join {method : Text} (hmembers : ∀ c ∈ members, IsMember (unmarked c))
    (hmethod : method ≠ Text.join ['|'] members) (hown : ¬ IsOwnClass members) :
    isSelfReference (Text.join ['|'] members) method = false := by
  have hcand : ∀ c ∈ members, IsCandidate c := fun c hc => (hmembers c hc).isCandidate_of_unmarked
  have hread : candidates (Text.join ['|'] members) = members := candidates_join (by decide) hcand
  refine isSelfReference_eq_false (trim_join _ hcand) hmethod ?_ ?_ ?_
  · intro heq
    exact hown (.inl (by rw [← hread, heq]; decide))
  · intro heq
    exact hown (.inr (by rw [← hread, heq]; decide))
  · intro heq
    have hthis : ("$this" : Text) ∈ members := by
      rw [← hread, heq]
      decide
    exact absurd (hmembers _ hthis).kind (by decide)

theorem ofMember_of_namesSelf (h : NamesSelf name) : ofMember owner name = ClassName.display owner :=
  if_pos h

theorem returnType_of_isOwnClass (hclass : ClassName.display scope.className = scope.className) (hname : m.name ≠ [])
    (hown : IsOwnClass members) :
    returnType scope (Text.join ['|'] members) { m with returnType := none } =
      returnType scope [] { m with returnType := some (.union members) } := by
  have hdocumented : mergedReturn scope (Text.join ['|'] members) { m with returnType := none } = scope.className := by
    have hself : isSelfReference (Text.join ['|'] members) m.name = true := by
      rcases hown with rfl | rfl <;> rfl
    have htrim : Text.trim scope.className = scope.className := by
      rw [← hclass]
      exact (ClassName.stripped_display _).strip_eq
    have hne : scope.className ≠ [] := by
      rw [← hclass]
      exact List.cons_ne_nil _ _
    have hsaid : documentedReturn scope m.name (Text.join ['|'] members) = scope.className := by
      rw [documentedReturn, hself, if_pos rfl]
    simp only [mergedReturn, hsaid, ofDeclared?, Option.map_none, Option.filter_none]
    rw [if_neg (by simpa using hne), merge_none, htrim, if_neg hne]
  have hdeclared : mergedReturn scope [] { m with returnType := some (.union members) } =
      ofCandidates [scope.className] := by
    have hmembers : (DeclaredType.union members).members = members := by
      rcases hown with rfl | rfl <;> decide
    have hparts : members.flatMap (expandMember scope.className) = [scope.className] := by
      rcases hown with rfl | rfl
      · rw [List.flatMap_singleton, expandMember_eq, ofMember_of_namesSelf (.inl (by decide)), hclass]
        rfl
      · rw [List.flatMap_singleton, expandMember_eq, ofMember_of_namesSelf (.inr (by decide)), hclass]
        rfl
    rw [mergedReturn_of_declared hname (by rcases hown with rfl | rfl <;> decide), ofDeclared, hmembers, hparts]
  rw [returnType_eq_resolved, returnType_eq_resolved, hdocumented, hdeclared, resolved_ofCandidates,
    List.map_singleton, TypeScope.resolved, ofCandidates_ofCandidates_cons, List.append_nil]

/-- A declared member that names the class is shown as the class. -/
theorem className_mem_returnType (hclass : ClassName.display scope.className = scope.className)
    (hsep : Unseparated scope.className) (hname : m.name ≠ []) (hmembers : ∀ c ∈ members, IsCandidate c)
    (hc : c ∈ members) (hself : NamesSelf (unmarked c)) :
    scope.className ∈ candidates (returnType scope [] { m with returnType := some (.union members) }) := by
  have hcand : IsCandidate scope.className := hclass ▸ isCandidate_display hsep
  have hnone : importOf? scope.imports scope.className = none := by
    rw [importOf?, if_pos (.inl (by rw [← hclass]; rfl))]
  have hshown : scope.resolved scope.className = scope.className := by
    rw [hcand.resolved_eq, shown_of_none hnone, canonical_of_display hclass hsep]
  have hpart : scope.className ∈ (expandMember scope.className c).map scope.resolved := by
    rw [expandMember_eq, ofMember_of_namesSelf hself, hclass, List.map_cons, hshown]
    exact List.mem_cons_self
  rw [returnType_of_declared hname (List.ne_nil_of_mem hc) hmembers, mem_candidates_ofCandidates]
  refine ⟨scope.className, List.mem_flatMap.mpr ⟨c, hc, hpart⟩, ?_⟩
  rw [hcand.candidates_eq]
  exact List.mem_singleton_self _

/-- **A documented union and the same declared union are shown alike, unless one member of several names the class.**
They are alike if no member is `self` or `static`, and also if one of these is the only member and written in this way.
Otherwise they differ, if the class is not a member under its own name.  The class is given in the form that is shown;
the method has a name, and the documented text is not that name. -/
theorem returnType_union (scope : TypeScope) (m : MethodDecl) (members : List Text) (hne : members ≠ [])
    (hmembers : ∀ c ∈ members, IsMember (unmarked c)) (hname : m.name ≠ [])
    (hmethod : m.name ≠ Text.join ['|'] members) :
    let documented := returnType scope (Text.join ['|'] members) { m with returnType := none }
    let declared := returnType scope [] { m with returnType := some (.union members) }
    ((∀ c ∈ members, ¬ NamesSelf (unmarked c)) → documented = declared) ∧
    (ClassName.display scope.className = scope.className → IsOwnClass members → documented = declared) ∧
    (ClassName.display scope.className = scope.className → Unseparated scope.className →
      (∀ c ∈ members, scope.className ∉ candidates (scope.shown c)) →
      (documented = declared ↔ (∀ c ∈ members, ¬ NamesSelf (unmarked c)) ∨ IsOwnClass members)) := by
  intro documented declared
  have hcand : ∀ c ∈ members, IsCandidate c := fun c hc => (hmembers c hc).isCandidate_of_unmarked
  have hjoin (hown : ¬ IsOwnClass members) : documented = ofCandidates (members.map scope.shown) :=
    returnType_join hne hcand (isSelfReference_join hmembers hmethod hown)
  have hfree : (∀ c ∈ members, ¬ NamesSelf (unmarked c)) → documented = declared := by
    intro hnone
    have hown : ¬ IsOwnClass members := by
      rintro (rfl | rfl) <;> exact hnone _ List.mem_cons_self (by decide)
    rw [hjoin hown]
    refine Eq.trans ?_ (returnType_of_declared hname hne hcand).symm
    rw [ofCandidates_flatMap, List.map_congr_left fun c hc => (hmembers c hc).shown_eq (hnone c hc)]
  refine ⟨hfree, fun hclass => returnType_of_isOwnClass hclass hname, fun hclass hsep hother => ⟨fun heq => ?_, ?_⟩⟩
  · by_contra hnot
    obtain ⟨hself, hown⟩ := not_or.mp hnot
    obtain ⟨c, hc, hself⟩ : ∃ c ∈ members, NamesSelf (unmarked c) := by simpa using hself
    have hmem := className_mem_returnType hclass hsep hname hcand hc hself
    rw [show returnType scope [] { m with returnType := some (.union members) } = _ from heq.symm.trans (hjoin hown),
      mem_candidates_ofCandidates] at hmem
    obtain ⟨shown, hshown, hmem⟩ := hmem
    obtain ⟨c', hc', rfl⟩ := List.mem_map.mp hshown
    exact hother c' hc' hmem
  · exact fun h => h.elim hfree (returnType_of_isOwnClass hclass hname)

/-- Members that need no namespace, in spellings that are not shown. -/
def priced : List Text :=
  ["?\\Shop\\Price\\", "Int", "\\int\\", "?null"]

/-- They are shown alike, and so is a class that refers to itself, unless it is nullable. -/
theorem service_union :
    returnType service (Text.join ['|'] priced) { name := "price" } = "\\Shop\\Price/null/Int/\\int".toList ∧
      returnType service [] { name := "price", returnType := some (.union priced) } =
        "\\Shop\\Price/null/Int/\\int".toList ∧
      returnType service "static" { name := "make" } =
        returnType service [] { name := "make", returnType := some (.union ["static"]) } ∧
      returnType service "?Self" { name := "make" } ≠
        returnType service [] { name := "make", returnType := some (.union ["?Self"]) } := by
  have hshown : ClassName.display service.className = service.className := by decide +kernel
  have hpriced := returnType_union service { name := "price" } priced (by decide) (by decide +kernel) (by decide)
    (by decide)
  have hstatic := returnType_union service { name := "make" } [("static" : Text)] (by decide) (by decide +kernel)
    (by decide) (by decide)
  have hself := returnType_union service { name := "make" } [("?Self" : Text)] (by decide) (by decide +kernel)
    (by decide) (by decide)
  have hdocumented : returnType service (Text.join ['|'] priced) { name := "price" } =
      "\\Shop\\Price/null/Int/\\int".toList := by
    decide +kernel
  refine ⟨hdocumented, (hpriced.1 (by decide +kernel)).symm.trans hdocumented, hstatic.2.1 hshown (by decide),
    fun heq => ?_⟩
  exact absurd ((hself.2.2 hshown (by decide +kernel) (by decide +kernel)).mp heq) (by decide +kernel)

/-- A documented union keeps the name `self`, a declared one replaces it. -/
theorem documented_self_kept :
    returnType service "self|null" { name := "make" } = "\\Acme\\self/null".toList ∧
      returnType service [] { name := "make", returnType := some (.union ["self", "null"]) } =
        "\\Acme\\Service/null".toList := by
  decide +kernel

end TypeUnion

end ApiPages
