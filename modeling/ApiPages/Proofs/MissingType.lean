import ApiPages.Proofs.Merge
import ApiPages.Proofs.NormalForm
import ApiPages.Proofs.ReturnType

/-! # Return types that are missing

A text without candidates is made of separators and white space (`candidates_eq_nil_iff`).  No step that follows the
merging of a documented type with a declared one can lose the last candidate: neither resolving the imports
(`candidates_resolveImports_eq_nil_iff`) nor qualifying the names (`candidates_canonical_eq_nil_iff`).  So a return type
is empty only if the merged one is.

A declared type has a candidate for each of its members.  But whether anything is documented is decided before the
documented type is taken apart.  So a comment that documents nothing but separators hides the guess from the method's
name, and the return type is empty if nothing is declared (`returnType_missing`, `separator_hides_guess`). -/

namespace ApiPages

/-! ### Imported paths -/

namespace Import

/-- The path of an import starts with a backslash. -/
def Rooted (i : Import) : Prop :=
  i.path.head? = some '\\'

instance : DecidablePred Rooted :=
  fun i => inferInstanceAs (Decidable (i.path.head? = some '\\'))

/-- The imports of every source are rooted. -/
theorem rooted_of_mem_ofSource {source : Text} {i : Import} (h : i ∈ ofSource source) : i.Rooted := by
  obtain ⟨chunk, _, h⟩ := List.mem_flatMap.mp h
  rcases cases_of_mem_ofStatement h with ⟨_, item, hitem⟩ | ⟨group, item, inner, _, _, rfl⟩
  · obtain ⟨path, hshown, _⟩ := exists_path_of_ofItem? hitem
    rw [Rooted, hshown]
    rfl
  · rfl

end Import

namespace TypeUnion

variable {c s t ns owner member documented declared : Text} {ts : List Text} {x : Char} {imports : List Import}

/-! ### Texts without candidates -/

theorem candidates_cons_ne_nil (hblank : Text.isBlank x = false) (hsep : isSeparator x = false) (s : Text) :
    candidates (x :: s) ≠ [] := by
  obtain ⟨first, rest, hs⟩ := List.exists_cons_of_ne_nil (List.splitOnP_ne_nil isSeparator s)
  have hfirst : Text.trim (x :: first) ≠ [] := Text.strip_ne_nil_iff.mpr ⟨x, List.mem_cons_self, hblank⟩
  rw [candidates, List.splitOnP_cons_eq_if_modifyHead, hsep, hs]
  simp [hfirst]

/-- A text without candidates is made of separators and white space. -/
theorem candidates_eq_nil_iff : candidates s = [] ↔ ∀ x ∈ s, Text.isBlank x = true ∨ isSeparator x = true := by
  induction s with
  | nil => simp [candidates_nil]
  | cons x s ih =>
      rw [List.forall_mem_cons]
      by_cases hblank : Text.isBlank x = true
      · rw [candidates_cons_blank hblank, ih]
        simp [hblank]
      · by_cases hsep : isSeparator x = true
        · have hcut := candidates_append_cons hsep [] s
          rw [candidates_nil, List.nil_append, List.nil_append] at hcut
          rw [hcut, ih]
          simp [hsep]
        · refine iff_of_false (candidates_cons_ne_nil ?_ ?_ s) fun h => h.1.elim hblank hsep
          · simpa using hblank
          · simpa using hsep

theorem candidates_ofCandidates_eq_nil_iff : candidates (ofCandidates ts) = [] ↔ ∀ t ∈ ts, candidates t = [] := by
  simp only [List.eq_nil_iff_forall_not_mem, mem_candidates_ofCandidates, not_exists, not_and]
  exact ⟨fun h t ht c => h c t ht, fun h c t ht => h t ht c⟩

theorem ofCandidates_eq_nil_iff : ofCandidates ts = [] ↔ candidates (ofCandidates ts) = [] := by
  refine ⟨fun h => by rw [h, candidates_nil], fun h => ?_⟩
  rw [candidates_ofCandidates] at h
  rw [ofCandidates, h]
  rfl

/-! ### No step loses the last candidate -/

theorem IsCandidate.candidates_qualify_ne_nil (hc : IsCandidate c) : candidates (TypeUnion.qualify ns c) ≠ [] := by
  simp only [TypeUnion.qualify, hc.trimmed]
  split
  · rw [hc.candidates_eq]
    exact List.cons_ne_nil _ _
  · split <;> exact candidates_cons_ne_nil (by decide) (by decide) _

theorem candidates_canonical_eq_nil_iff : candidates (canonical ns t) = [] ↔ candidates t = [] := by
  rw [canonical, candidates_ofCandidates_eq_nil_iff]
  refine ⟨fun h => ?_, fun h => by simp [h]⟩
  rw [List.eq_nil_iff_forall_not_mem]
  intro c hc
  have hparts : ∀ part ∈ expand ns c, candidates part = [] := fun part hpart =>
    h part (List.mem_flatMap.mpr ⟨c, hc, hpart⟩)
  unfold expand at hparts
  split at hparts
  · have hnull : candidates "null" ≠ [] := by decide
    exact hnull (hparts _ (by simp))
  · exact (isCandidate_of_mem hc).candidates_qualify_ne_nil (hparts _ List.mem_cons_self)

theorem candidates_resolveCandidate_ne_nil (himports : ∀ i ∈ imports, i.Rooted) (hc : IsCandidate c) :
    candidates (resolveCandidate imports c) ≠ [] := by
  cases hi : importOf? imports c with
  | none =>
      rw [resolveCandidate_of_none hi, hc.candidates_eq]
      exact List.cons_ne_nil _ _
  | some i =>
      obtain ⟨rest, hpath⟩ := List.head?_eq_some_iff.mp (himports i (mem_of_importOf? hi))
      rw [resolveCandidate_of_some hi, continuePath, hpath]
      exact candidates_cons_ne_nil (by decide) (by decide) _

theorem candidates_resolveImports_eq_nil_iff (himports : ∀ i ∈ imports, i.Rooted) :
    candidates (resolveImports imports t) = [] ↔ candidates t = [] := by
  rw [resolveImports, candidates_ofCandidates_eq_nil_iff, List.forall_mem_map]
  refine ⟨fun h => ?_, fun h => by simp [h]⟩
  rw [List.eq_nil_iff_forall_not_mem]
  exact fun c hc => candidates_resolveCandidate_ne_nil himports (isCandidate_of_mem hc) (h c hc)

/-! ### Declared types -/

/-- A native name has letters. -/
theorem candidates_ne_nil_of_isNative (h : isNative member = true) : candidates member ≠ [] := by
  intro hnil
  have hletters : ∀ n ∈ natives, n ≠ [] ∧ n.all Char.isAlpha = true := by decide
  obtain ⟨hne, halpha⟩ := hletters _ (List.contains_iff_mem.mp h)
  obtain ⟨x, hx⟩ := List.exists_mem_of_ne_nil _ hne
  obtain ⟨y, hy, rfl⟩ := List.mem_map.mp hx
  have hmark : y.isAlpha = false := by
    rcases candidates_eq_nil_iff.mp hnil y (Text.mem_of_mem_strip (Text.mem_of_mem_strip hy)) with hblank | hsep
    · exact Text.isAlpha_eq_false_of_isBlank hblank
    · rcases Bool.or_eq_true_iff.mp hsep with hy | hy <;> rw [beq_iff_eq.mp hy] <;> decide
  have hlower := List.all_eq_true.mp halpha _ hx
  rw [(Text.toLower_eq_iff hmark).mpr rfl, hmark] at hlower
  cases hlower

theorem candidates_ofMember_ne_nil (owner member : Text) : candidates (ofMember owner member) ≠ [] := by
  simp only [ofMember]
  split
  · exact candidates_cons_ne_nil (by decide) (by decide) _
  · split
    · rename_i hnative
      exact candidates_ne_nil_of_isNative hnative
    · exact candidates_cons_ne_nil (by decide) (by decide) _

/-- Each member of a declared type has a candidate. -/
theorem candidates_ofDeclared_eq_nil_iff (owner : Text) {type : DeclaredType} :
    candidates (ofDeclared owner type) = [] ↔ type.members = [] := by
  rw [ofDeclared, candidates_ofCandidates_eq_nil_iff]
  refine ⟨fun h => ?_, fun h => by simp [h]⟩
  rw [List.eq_nil_iff_forall_not_mem]
  intro member hmember
  have hparts : ∀ part ∈ expandMember owner member, candidates part = [] := fun part hpart =>
    h part (List.mem_flatMap.mpr ⟨member, hmember, hpart⟩)
  unfold expandMember at hparts
  split at hparts <;> exact candidates_ofMember_ne_nil owner _ (hparts _ List.mem_cons_self)

theorem ofDeclared?_eq_none_iff (owner : Text) {type? : Option DeclaredType} :
    ofDeclared? owner type? = none ↔ ∀ type ∈ type?, type.members = [] := by
  cases type? with
  | none => simp [ofDeclared?]
  | some type =>
      rw [ofDeclared?, Option.map_some, Option.filter_some]
      simp [ofDeclared, ofCandidates_eq_nil_iff, ← candidates_ofDeclared_eq_nil_iff owner]

theorem candidates_ne_nil_of_mem_ofDeclared? {type? : Option DeclaredType} (h : declared ∈ ofDeclared? owner type?) :
    candidates declared ≠ [] := by
  rw [ofDeclared?, Option.mem_def, Option.filter_eq_some_iff, Option.map_eq_some_iff] at h
  obtain ⟨⟨type, _, rfl⟩, hne⟩ := h
  intro hnil
  rw [ofDeclared, ofCandidates_eq_nil_iff.mpr hnil] at hne
  cases hne

/-! ### Merged types -/

/-- A declared candidate is not lost, unless there is a documented one. -/
theorem Merged.candidates_ne_nil {type : Text} (hm : Merged documented declared type) (h : candidates declared ≠ []) :
    candidates type ≠ [] := by
  rw [← candidates_trim] at h
  cases hm with
  | undeclared hdeclared => exact absurd (hdeclared ▸ candidates_nil) h
  | unknown hdeclared _ => exact absurd (hdeclared ▸ candidates_nil) h
  | same heq => rwa [heq]
  | array _ hend =>
      have hbracket : ']' ∈ Text.trim documented := (List.isSuffixOf_iff_suffix.mp hend).subset (by decide)
      intro hnil
      exact absurd (candidates_eq_nil_iff.mp hnil _ hbracket) (by decide)
  | undocumented _ => exact h
  | named _ _ => exact h
  | both _ =>
      rw [ne_eq, candidates_ofCandidates_eq_nil_iff]
      exact fun hall => h (hall _ (by simp))

theorem guess_mem_natives (method : Text) : guess method ∈ natives := by
  unfold guess
  split
  · decide
  · split <;> decide

theorem candidates_ne_nil_of_mem_natives (h : t ∈ natives) : candidates t ≠ [] := by
  rw [(isCandidate_of_mem_natives h).candidates_eq]
  exact List.cons_ne_nil _ _

theorem merge_none (said : Text) :
    merge said none = if Text.trim said = [] then "mixed".toList else Text.trim said := by
  simp [merge]

theorem candidates_mergedReturn_eq_nil_iff {scope : TypeScope} {m : MethodDecl} :
    candidates (mergedReturn scope documented m) = [] ↔
      (∀ type ∈ m.returnType, type.members = []) ∧
      Text.trim (documentedReturn scope m.name documented) ≠ [] ∧
      candidates (documentedReturn scope m.name documented) = [] := by
  simp only [mergedReturn]
  generalize documentedReturn scope m.name documented = said
  rw [← ofDeclared?_eq_none_iff scope.className]
  cases hdeclared : ofDeclared? scope.className m.returnType with
  | none =>
      by_cases htrim : Text.trim said = []
      · -- nothing is said, so a native name takes its place
        have hnative : (if said.isEmpty then guess m.name else merge said none) ∈ natives := by
          split
          · exact guess_mem_natives m.name
          · rw [merge_none, if_pos htrim]
            decide
        exact iff_of_false (candidates_ne_nil_of_mem_natives hnative) fun h => h.2.1 htrim
      · have hne : said ≠ [] := by
          rintro rfl
          exact htrim rfl
        rw [if_neg (by simpa using hne), merge_none, if_neg htrim, candidates_trim]
        exact ⟨fun h => ⟨rfl, htrim, h⟩, fun h => h.2.2⟩
  | some declared =>
      have hne := (merged_merge said declared).candidates_ne_nil (candidates_ne_nil_of_mem_ofDeclared? hdeclared)
      exact iff_of_false hne fun h => nomatch h.1

/-- **A return type has a candidate unless nothing is declared and nothing but separators is documented.**  What is
documented is taken with a reference to the method's class spelled out.  If neither the comment nor the declaration has
a candidate, the type is guessed from the method's name where the documented type is blank, and empty where it is not.
This holds of all imports that a source can have. -/
theorem returnType_missing (scope : TypeScope) (documented : Text) (m : MethodDecl)
    (himports : ∀ i ∈ scope.imports, i.Rooted) :
    (candidates (returnType scope documented m) = [] ↔
      (∀ type ∈ m.returnType, type.members = []) ∧
      Text.trim (documentedReturn scope m.name documented) ≠ [] ∧
      candidates (documentedReturn scope m.name documented) = []) ∧
    ((∀ type ∈ m.returnType, type.members = []) → isSelfReference documented m.name = false →
      candidates documented = [] →
      returnType scope documented m = if Text.trim documented = [] then guess m.name else []) := by
  have hempty :
      candidates (returnType scope documented m) = [] ↔ candidates (mergedReturn scope documented m) = [] := by
    rw [returnType, candidates_canonical_eq_nil_iff, candidates_resolveImports_eq_nil_iff himports]
  have hmissing := hempty.trans candidates_mergedReturn_eq_nil_iff
  refine ⟨hmissing, fun hdeclared hself hnone => ?_⟩
  have hsaid : documentedReturn scope m.name documented = Text.trim documented := by
    simp [documentedReturn, hself]
  split
  · rename_i htrim
    have hguess : mergedReturn scope documented m = guess m.name := by
      simp [mergedReturn, hsaid, htrim, (ofDeclared?_eq_none_iff scope.className).mpr hdeclared]
    have hnative := guess_mem_natives m.name
    rw [returnType_eq_resolved, hguess, (isCandidate_of_mem_natives hnative).resolved_eq, shown_of_mem_natives hnative]
  · rename_i htrim
    rw [hsaid, Text.trim_trim, candidates_trim] at hmissing
    exact ofCandidates_eq_nil_iff.mpr (hmissing.mpr ⟨hdeclared, htrim, hnone⟩)

theorem service_imports_rooted : ∀ i ∈ service.imports, i.Rooted :=
  fun _ hi => Import.rooted_of_mem_ofSource hi

/-- Separators are documented and a number is declared: there is a candidate.  Nothing is documented: the name
decides. -/
theorem service_missing :
    candidates (returnType service "/ |" { name := "run", returnType := some (.named "?int") }) ≠ [] ∧
      returnType service " " { name := "hasClient", returnType := some (.union [" "]) } = "bool".toList := by
  have hcount := returnType_missing service "/ |" { name := "run", returnType := some (.named "?int") }
    service_imports_rooted
  have hguess := returnType_missing service " " { name := "hasClient", returnType := some (.union [" "]) }
    service_imports_rooted
  refine ⟨fun hnil => ?_, hguess.2 (by simp; decide) (by decide) (by decide)⟩
  exact absurd ((hcount.1.mp hnil).1 _ rfl) (by decide)

/-- One separator is documented, so the type is not guessed and has no candidate. -/
theorem separator_hides_guess :
    returnType service "|" { name := "run" } = [] ∧ candidates "|" = [] ∧ guess "run" = "void".toList := by
  decide +kernel

end TypeUnion

end ApiPages
