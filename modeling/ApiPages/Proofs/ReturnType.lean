import ApiPages.Proofs.ImportedName
import ApiPages.Proofs.NormalForm

/-! # Return types from comments alone

A documented return type goes through the imports of the source and is then qualified, candidate by candidate
(`returnType_eq_ofCandidates`).  Two ways of writing a type are compared here with what they stand for.

* A leading `?` is read only by the last of these steps.  So a nullable class name is not looked up among the imports,
  and means the union with `null` only if the imports do not change the name (`returnType_nullable`,
  `nullable_client_not_imported`).
* The search takes off one bracket pair.  So a name of one segment is looked up alone and as the element of an array,
  but not as the element of an array of arrays (`returnType_array`, `nested_clients_not_imported`). -/

namespace ApiPages

namespace TypeScope

/-- What is shown for a documented candidate. -/
def shown (scope : TypeScope) (candidate : Text) : Text :=
  TypeUnion.canonical scope.namespaceName (TypeUnion.resolveCandidate scope.imports candidate)

/-- What is shown for a type: the imports of its candidates are resolved, then they are qualified. -/
def resolved (scope : TypeScope) (type : Text) : Text :=
  TypeUnion.ofCandidates ((TypeUnion.candidates type).map scope.shown)

/-- A class name in the namespace of the class that is described. -/
def ownName (scope : TypeScope) (name : Text) : Text :=
  ClassName.display (Text.strip ClassName.isBackslash scope.namespaceName ++ '\\' :: name)

/-- The class that a bare name means: the first import of its first segment, continued by the others, or else the
class of this name in the namespace. -/
def fullName (scope : TypeScope) (name : Text) : Text :=
  match Import.find? scope.imports (name.takeWhile (· != '\\')) with
  | some i => i.path ++ name.dropWhile (· != '\\')
  | none => scope.ownName name

end TypeScope

namespace TypeUnion

variable {scope : TypeScope} {m : MethodDecl} {documented type name ns : Text}

/-! ### One candidate after the other -/

theorem returnType_eq_resolved (scope : TypeScope) (documented : Text) (m : MethodDecl) :
    returnType scope documented m = scope.resolved (mergedReturn scope documented m) := by
  rw [returnType, resolveImports, canonical_ofCandidates, List.map_map]
  rfl

theorem returnType_eq_ofCandidates (hdeclared : m.returnType = none) (htrim : Text.trim documented = documented)
    (hne : documented ≠ []) (hself : isSelfReference documented m.name = false) :
    returnType scope documented m = ofCandidates ((candidates documented).map scope.shown) := by
  have hmerged : mergedReturn scope documented m = documented := by
    simp [mergedReturn, ofDeclared?, documentedReturn, merge, hdeclared, htrim, hne, hself]
  rw [returnType_eq_resolved, hmerged, TypeScope.resolved]

theorem IsCandidate.resolved_eq (hc : IsCandidate type) : scope.resolved type = scope.shown type := by
  rw [TypeScope.resolved, hc.candidates_eq, List.map_singleton, TypeScope.shown, canonical,
    ofCandidates_ofCandidates_cons, List.append_nil]

theorem returnType_of_isCandidate (hdeclared : m.returnType = none) (hc : IsCandidate documented)
    (hself : isSelfReference documented m.name = false) : returnType scope documented m = scope.shown documented := by
  rw [returnType_eq_ofCandidates hdeclared hc.trimmed hc.ne_nil hself, ← TypeScope.resolved, hc.resolved_eq]

theorem shown_of_none (h : importOf? scope.imports type = none) :
    scope.shown type = canonical scope.namespaceName type := by
  rw [TypeScope.shown, resolveCandidate_of_none h]

/-- A native name is shown as it is. -/
theorem shown_of_mem_natives (h : type ∈ natives) : scope.shown type = type := by
  have hall : ∀ n ∈ natives, isClassReference n = false := by decide +kernel
  have hnone : importOf? scope.imports type = none := by
    rw [importOf?, if_pos (by simp [hall type h])]
  rw [shown_of_none hnone, (isNormal_of_mem_natives h).canonical_eq]

/-! ### Nullable types -/

/-- A text that is one candidate at most and not nullable. -/
def IsToken (type : Text) : Prop :=
  ∀ c ∈ type, Text.isBlank c = false ∧ isSeparator c = false ∧ c ≠ '?'

instance : DecidablePred IsToken :=
  fun type => List.decidableBAll (fun c => Text.isBlank c = false ∧ isSeparator c = false ∧ c ≠ '?') type

theorem IsToken.isCandidate (h : IsToken type) (hne : type ≠ []) : IsCandidate type :=
  ⟨hne, Text.trim_eq_self fun c hc => (h c hc).1, fun c hc => (h c hc).2.1⟩

theorem isCandidate_nullable (h : IsToken type) : IsCandidate ('?' :: type) where
  ne_nil := List.cons_ne_nil _ _
  trimmed := Text.trim_eq_self (List.forall_mem_cons.mpr ⟨by decide, fun c hc => (h c hc).1⟩)
  unseparated := List.forall_mem_cons.mpr ⟨by decide, fun c hc => (h c hc).2.1⟩

theorem canonical_token (h : IsToken type) : canonical ns type = ofCandidates [qualify ns type] := by
  by_cases hne : type = []
  · subst hne
    have hempty : isClassReference (Text.trim []) = false := by decide
    rw [canonical, candidates_nil, qualify, hempty]
    rfl
  · have hhead : type.head? ≠ some '?' := fun hc => (h _ (List.mem_of_mem_head? hc)).2.2 rfl
    rw [canonical, (h.isCandidate hne).candidates_eq, List.flatMap_singleton, expand_of_head hhead]

theorem canonical_nullable (h : IsToken type) :
    canonical ns ('?' :: type) = ofCandidates [canonical ns type, "null"] := by
  rw [canonical, (isCandidate_nullable h).candidates_eq, List.flatMap_singleton, expand, canonical_token h,
    ofCandidates_ofCandidates_cons]
  rfl

/-- The imports are not asked for a nullable name. -/
theorem shown_nullable (h : IsToken type) :
    scope.shown ('?' :: type) = ofCandidates [canonical scope.namespaceName type, "null"] := by
  have hnone : importOf? scope.imports ('?' :: type) = none := by
    rw [importOf?, if_pos (by simp)]
  rw [shown_of_none hnone, canonical_nullable h]

theorem ofCandidates_map_shown (h : IsToken type) (us : List Text) :
    ofCandidates ((candidates type).map scope.shown ++ us) = ofCandidates (scope.shown type :: us) := by
  by_cases hne : type = []
  · subst hne
    have hnone : importOf? scope.imports [] = none := by
      rw [importOf?, if_pos (by decide)]
    have hshown : scope.shown [] = [] := by
      rw [shown_of_none hnone]
      rfl
    rw [candidates_nil, hshown, ofCandidates, ofCandidates, List.flatMap_cons, candidates_nil]
    rfl
  · rw [(h.isCandidate hne).candidates_eq]
    rfl

theorem isSelfReference_eq_false {c method : Text} (htrim : Text.trim c = c) (hmethod : method ≠ c)
    (hself : c ≠ "self") (hstatic : c ≠ "static") (hthis : c ≠ "$this") : isSelfReference c method = false := by
  simp only [isSelfReference, htrim, hself, hstatic, hthis, hmethod.symm, decide_false, Bool.or_self]

theorem returnType_of_nullable (hdeclared : m.returnType = none) (h : IsToken type) (hname : m.name ≠ '?' :: type) :
    returnType scope ('?' :: type) m = ofCandidates [canonical scope.namespaceName type, "null"] := by
  have hc := isCandidate_nullable h
  have hself : isSelfReference ('?' :: type) m.name = false :=
    isSelfReference_eq_false hc.trimmed hname (by simp) (by simp) (by simp)
  rw [returnType_of_isCandidate hdeclared hc hself, shown_nullable h]

theorem returnType_of_union_null (hdeclared : m.returnType = none) (h : IsToken type)
    (hname : m.name ≠ type ++ "|null") :
    returnType scope (type ++ "|null") m = ofCandidates [scope.shown type, "null"] := by
  have htrim : Text.trim (type ++ "|null") = type ++ "|null" := by
    have hnull : ∀ c ∈ ("|null" : Text), ¬ Text.isBlank c = true := List.any_eq_false.mp (by decide)
    refine Text.trim_eq_self (List.forall_mem_append.mpr ⟨fun c hc => (h c hc).1, fun c hc => ?_⟩)
    exact Bool.eq_false_iff.mpr (hnull c hc)
  have hother : ∀ t : Text, '|' ∉ t → type ++ "|null" ≠ t := by
    rintro t ht rfl
    exact ht (by simp)
  have hself : isSelfReference (type ++ "|null") m.name = false :=
    isSelfReference_eq_false htrim hname (hother _ (by decide)) (hother _ (by decide)) (hother _ (by decide))
  have hpieces : candidates (type ++ "|null") = candidates type ++ [("null" : Text)] :=
    candidates_append_cons (by decide) type "null"
  rw [returnType_eq_ofCandidates hdeclared htrim (by simp) hself, hpieces, List.map_append, List.map_singleton,
    shown_of_mem_natives (by decide), ofCandidates_map_shown h]

/-- **A nullable type is the union with `null` where the imports do not change it.**  The short form qualifies the
type as it stands, the long form resolves its imports first.  The two agree if the type refers to no import.  If all
imports are plain, they agree exactly where both forms show the type alike. -/
theorem returnType_nullable (scope : TypeScope) (m : MethodDecl) (type : Text) (hdeclared : m.returnType = none)
    (htoken : IsToken type) (hshort : m.name ≠ '?' :: type) (hlong : m.name ≠ type ++ "|null") :
    returnType scope ('?' :: type) m = ofCandidates [canonical scope.namespaceName type, "null"] ∧
    returnType scope (type ++ "|null") m = ofCandidates [scope.shown type, "null"] ∧
    (importOf? scope.imports type = none → returnType scope ('?' :: type) m = returnType scope (type ++ "|null") m) ∧
    (Unseparated scope.namespaceName → (∀ i ∈ scope.imports, i.Plain) →
      (returnType scope ('?' :: type) m = returnType scope (type ++ "|null") m ↔
        scope.shown type = canonical scope.namespaceName type)) := by
  rw [returnType_of_nullable hdeclared htoken hshort, returnType_of_union_null hdeclared htoken hlong]
  refine ⟨rfl, rfl, fun hnone => by rw [shown_of_none hnone], fun hns himports => ?_⟩
  refine ⟨fun heq => ?_, fun heq => by rw [heq]⟩
  cases hi : importOf? scope.imports type with
  | none => exact shown_of_none hi
  | some i =>
      have hplain : ∀ c ∈ type, Text.isBlank c = false ∧ isSeparator c = false := fun c hc =>
        ⟨(htoken c hc).1, (htoken c hc).2.1⟩
      have htype : IsCandidate type := htoken.isCandidate fun hnil => by
        have href := isClassReference_of_importOf? hi
        rw [hnil] at href
        cases href
      have hmark : type.head? ≠ some '?' := fun hc => (htoken _ (List.mem_of_mem_head? hc)).2.2 rfl
      obtain ⟨hresolved, hhead⟩ := isCandidate_resolveCandidate himports hi hplain
      rw [TypeScope.shown, htype.canonical_eq hns hmark, hresolved.canonical_eq hns (by simp [hhead])] at heq ⊢
      exact ((htype.qualify hns).eq_of_ofCandidates_eq (hresolved.qualify hns) heq).symm

/-- A class of a service whose source imports a client. -/
def service : TypeScope :=
  ⟨"\\Acme\\Service", Import.ofSource "<?php\nuse Vendor\\Lib\\Client;\n"⟩

theorem service_imports_plain : ∀ i ∈ service.imports, i.Plain := by
  intro i hi
  have hgroups : ∀ chunk ∈ Import.useChunks "<?php\nuse Vendor\\Lib\\Client;\n",
      ∀ group ∈ Import.groupOf? (Text.trim (chunk.takeWhile (· != ';'))), Import.isPath group = true := by
    decide +kernel
  have hroot : ∀ i ∈ service.imports, i.path ≠ ['\\'] := by decide +kernel
  exact Import.plain_of_mem_ofSource hgroups hi (hroot i hi)

/-- An item is not imported, so its nullable forms agree; the client's would agree only in its own namespace. -/
theorem service_nullable :
    returnType service "?Item[]" { name := "client" } = returnType service "Item[]|null" { name := "client" } ∧
      (returnType service "?Client" { name := "client" } = returnType service "Client|null" { name := "client" } ↔
        service.shown "Client" = canonical service.namespaceName "Client") := by
  have hitem := returnType_nullable service { name := "client" } "Item[]" rfl (by decide) (by decide) (by decide)
  have hclient := returnType_nullable service { name := "client" } "Client" rfl (by decide) (by decide) (by decide)
  exact ⟨hitem.2.2.1 (by decide +kernel), hclient.2.2.2 (by decide +kernel) service_imports_plain⟩

/-- The nullable client is not found among the imports. -/
theorem nullable_client_not_imported :
    returnType service "?Client" { name := "client" } = "\\Acme\\Client/null".toList ∧
      returnType service "Client|null" { name := "client" } = "\\Vendor\\Lib\\Client/null".toList := by
  decide +kernel

/-! ### Arrays of arrays -/

section

variable (h : IsBareName name) (hns : Unseparated scope.namespaceName)

include h hns

/-- A bare class name lies in the namespace of the class. -/
theorem canonical_brackets (n : Nat) :
    canonical scope.namespaceName (name ++ brackets n) = scope.ownName name ++ brackets n := by
  obtain ⟨x, hx, hslash, hmark, _⟩ := h.head_append (brackets n)
  obtain ⟨last, hlast⟩ := Option.ne_none_iff_exists'.mp (mt List.getLast?_eq_none_iff.mp h.ne_nil)
  have hpairs : ∀ y ∈ brackets n, ClassName.isOuter y = false := fun _ => isOuter_of_mem_brackets
  have hown : ∀ front, (front ++ '\\' :: name).getLast? = some last := by
    intro front
    rw [List.getLast?_append_cons, List.getLast?_cons_of_ne_nil h.ne_nil, hlast]
  have hshow : ∀ front, ClassName.display (front ++ '\\' :: (name ++ brackets n)) =
      ClassName.display (front ++ '\\' :: name) ++ brackets n := by
    intro front
    rw [← List.cons_append, ← List.append_assoc,
      ClassName.display_append ⟨last, hown front, h.isOuter_of_mem_getLast? hlast⟩ hpairs]
  rw [(h.isCandidate n).canonical_eq hns (by simp [hx, hmark]), TypeScope.ownName, ← hshow]
  simp only [qualify, (h.isCandidate n).trimmed, h.isClassReference_brackets, hx]
  split
  · rename_i hc
    cases hc
  · split
    · rename_i hempty
      have hnil : Text.strip ClassName.isBackslash scope.namespaceName = [] := by
        simpa [hslash] using hempty
      rw [hnil, List.nil_append, ClassName.display, ClassName.display, Text.strip_cons_of_pos (by decide)]
    · rfl

/-- A name that is not imported is shown in the namespace of the class. -/
theorem shown_brackets_of_none {n : Nat} (hnone : importOf? scope.imports (name ++ brackets n) = none) :
    scope.shown (name ++ brackets n) = scope.ownName name ++ brackets n := by
  rw [shown_of_none hnone, canonical_brackets h hns]

omit hns in
theorem shown_brackets_of_some {n : Nat} {i : Import} (himports : ∀ i ∈ scope.imports, i.Plain)
    (hi : importOf? scope.imports (name ++ brackets n) = some i) :
    scope.shown (name ++ brackets n) = i.path ++ name.dropWhile (· != '\\') ++ brackets n := by
  have hplain := himports i (mem_of_importOf? hi)
  have hlast : ∀ x ∈ (name.dropWhile (· != '\\') ++ brackets n).getLast?, ClassName.isOuter x = false := by
    intro x hx
    rw [Option.mem_def, List.getLast?_append, Option.or_eq_some_iff] at hx
    rcases hx with hx | ⟨_, hx⟩
    · exact isOuter_of_mem_brackets (List.mem_of_getLast? hx)
    · refine h.isOuter_of_mem_getLast? ?_
      have hsplit := List.takeWhile_append_dropWhile (p := (· != '\\')) (l := name)
      rw [← hsplit, Option.mem_def, List.getLast?_append, hx]
      rfl
  have hsep : Unseparated (i.path ++ (name.dropWhile (· != '\\') ++ brackets n)) := by
    refine hplain.unseparated.append fun x hx => (h.plain_of_mem (n := n) ?_).2
    rcases List.mem_append.mp hx with hx | hx
    · exact List.mem_append_left _ ((List.dropWhile_suffix _).subset hx)
    · exact List.mem_append_right _ hx
  rw [TypeScope.shown, resolveCandidate_brackets h hi himports,
    canonical_of_display (display_path_append hplain hlast) hsep, List.append_assoc]

/-- A bare name means the class of its full name, but the imports are not asked in an array of arrays if the name has
one segment. -/
theorem shown_brackets (himports : ∀ i ∈ scope.imports, i.Plain) (n : Nat) :
    scope.shown (name ++ brackets n) =
      (if 2 ≤ n ∧ '\\' ∉ name then scope.ownName name else scope.fullName name) ++ brackets n := by
  have hfind := importOf?_brackets h himports n
  by_cases hdeep : 2 ≤ n ∧ '\\' ∉ name
  · rw [if_pos hdeep] at hfind ⊢
    exact shown_brackets_of_none h hns hfind
  · rw [if_neg hdeep] at hfind ⊢
    rw [TypeScope.fullName]
    split
    · rename_i i hi
      rw [hi] at hfind
      exact shown_brackets_of_some h himports hfind
    · rename_i hnone
      rw [hnone] at hfind
      exact shown_brackets_of_none h hns hfind

end

theorem IsBareName.isSelfReference_brackets {method : Text} (h : IsBareName name) (hself : name ≠ "self")
    (hstatic : name ≠ "static") (n : Nat) (hmethod : method ≠ name ++ brackets n) :
    isSelfReference (name ++ brackets n) method = false := by
  have hother : ∀ t : Text, name ≠ t → ']' ∉ t → name ++ brackets n ≠ t := by
    rintro t hne hbracket rfl
    cases n with
    | zero => exact hne (List.append_nil name).symm
    | succ n =>
        refine hbracket ?_
        rw [brackets_succ]
        simp
  obtain ⟨x, hx, _, _, hdollar⟩ := h.head_append (brackets n)
  refine isSelfReference_eq_false (h.isCandidate n).trimmed hmethod (hother _ hself (by decide))
    (hother _ hstatic (by decide)) fun hthis => hdollar ?_
  rw [hthis] at hx
  exact (Option.some.inj hx).symm

/-- **Imports are resolved below one bracket pair.**  A bare class name is shown as the path of the first import of its
first segment, continued by its other segments, or else in the namespace of the class.  An array of `n` dimensions is
shown as that name with `n` bracket pairs, unless the name is imported itself, stands under two bracket pairs or more,
and is not imported from the namespace of the class. -/
theorem returnType_array (scope : TypeScope) (m : MethodDecl) (name : Text) (hdeclared : m.returnType = none)
    (hname : IsBareName name) (hself : name ≠ "self") (hstatic : name ≠ "static")
    (hmethod : ∀ n, m.name ≠ name ++ brackets n) (hns : Unseparated scope.namespaceName)
    (himports : ∀ i ∈ scope.imports, i.Plain) :
    returnType scope name m = scope.fullName name ∧
    ∀ n, returnType scope (name ++ brackets n) m = returnType scope name m ++ brackets n ↔
      (2 ≤ n → '\\' ∉ name → ∀ i, Import.find? scope.imports name = some i → i.path = scope.ownName name) := by
  have hshown : ∀ n, returnType scope (name ++ brackets n) m =
      (if 2 ≤ n ∧ '\\' ∉ name then scope.ownName name else scope.fullName name) ++ brackets n := by
    intro n
    have hnot := hname.isSelfReference_brackets hself hstatic n (hmethod n)
    rw [returnType_of_isCandidate hdeclared (hname.isCandidate n) hnot, shown_brackets hname hns himports]
  have halone : returnType scope name m = scope.fullName name := by
    have hzero := hshown 0
    rwa [if_neg (by omega), brackets, List.replicate_zero, List.flatten_nil, List.append_nil, List.append_nil] at hzero
  refine ⟨halone, fun n => ?_⟩
  rw [hshown n, halone, List.append_left_inj]
  by_cases hdeep : 2 ≤ n ∧ '\\' ∉ name
  · have hsegment := takeWhile_of_notMem hdeep.2
    rw [if_pos hdeep, TypeScope.fullName, hsegment.1, hsegment.2]
    cases Import.find? scope.imports name with
    | none => simp
    | some i => simp [hdeep, eq_comm]
  · rw [if_neg hdeep]
    exact iff_of_true rfl fun hn hslash => absurd ⟨hn, hslash⟩ hdeep

/-- A pool below the imported client: its two segments are found in every array. -/
theorem service_array :
    returnType service "Client\\Pool" { name := "all" } = "\\Vendor\\Lib\\Client\\Pool".toList ∧
      returnType service "Client\\Pool[][][]" { name := "all" } = "\\Vendor\\Lib\\Client\\Pool[][][]".toList := by
  have hname : IsBareName "Client\\Pool" :=
    ⟨by decide, List.all_eq_true.mp (by decide), by decide, by decide, by decide⟩
  have hmethod : ∀ n, ("all" : Text) ≠ ("Client\\Pool" : Text) ++ brackets n := by
    intro n hn
    cases congrArg List.head? hn
  obtain ⟨halone, harray⟩ := returnType_array service { name := "all" } "Client\\Pool" rfl hname (by decide) (by decide)
    hmethod (by decide +kernel) service_imports_plain
  have hfull : service.fullName "Client\\Pool" = "\\Vendor\\Lib\\Client\\Pool".toList := by decide +kernel
  have hthree := (harray 3).mpr fun _ hslash => absurd (by decide) hslash
  rw [halone, hfull] at hthree
  exact ⟨halone.trans hfull, hthree⟩

/-- An array of arrays of clients is not found among the imports. -/
theorem nested_clients_not_imported :
    returnType service "Client[]" { name := "all" } = "\\Vendor\\Lib\\Client[]".toList ∧
      returnType service "Client[][]" { name := "all" } = "\\Acme\\Client[][]".toList := by
  decide +kernel

end TypeUnion

end ApiPages
