import ApiPages.Proofs.Candidate
import ApiPages.TypeUnion.Merge

/-! # What merging keeps

A documented type and a declared one are merged into a type with the candidates of both, with one exception: where the
two texts end in the same class name, the declared type stands alone.  The name is the part of the whole text after its
last backslash, so candidates that are documented before that one are lost unless the declared type has them as well
(`merge_keeps_candidates`, `price_merge_loses_int`).

The texts after the last backslash agree to the end.  So nothing is lost if only the first documented candidate is
qualified (`keeps_of_short_eq`). -/

namespace ApiPages

/-! ### Candidates that are kept -/

namespace TypeUnion

variable {c q d t segment : Text}

/-- A type has a candidate, or another one of the same class name. -/
def Keeps (type c : Text) : Prop :=
  c ∈ candidates type ∨ ∃ c' ∈ candidates type, ClassName.short c' = ClassName.short c

instance : Decidable (Keeps d c) :=
  inferInstanceAs (Decidable (_ ∨ _))

/-- No candidate but the first one is qualified, and that one is followed by a class name. -/
structure NamesFirst (type : Text) : Prop where
  /-- No backslash stands after a separator. -/
  first : '\\' ∉ (Text.trim type).dropWhile fun c => !isSeparator c
  whole : ∀ c ∈ candidates type, c.getLast? ≠ some '\\'

theorem exists_nonblank (hq : ClassName.IsQualifier q) (hne : Text.trim (q ++ segment) ≠ [])
    (hlast : (Text.trim (q ++ segment)).getLast? ≠ some '\\') : ∃ x ∈ segment, Text.isBlank x = false := by
  by_contra hnone
  have hall : ∀ x ∈ segment, Text.isBlank x = true := by
    intro x hx
    by_contra hb
    exact hnone ⟨x, hx, Bool.eq_false_iff.mpr hb⟩
  have htrim : Text.trim (q ++ segment) = Text.trim q := Text.strip_append_of_forall hall q
  rcases hq with rfl | ⟨before, rfl⟩
  · exact hne htrim
  · have hend : ∀ x ∈ (before ++ ['\\']).getLast?, Text.isBlank x = false := by
      intro x hx
      rw [List.getLast?_concat, Option.mem_some_iff] at hx
      subst hx
      decide
    refine hlast ?_
    rw [htrim, Text.trim, Text.strip_eq_dropWhile hend, Text.getLast?_dropWhile hend, List.getLast?_concat]

/-- The last piece of a qualifier is a qualifier, so it makes a candidate with a segment after it. -/
theorem exists_candidate_append (hq : ClassName.IsQualifier q) (hsegment : Unseparated segment) :
    ∃ x, ClassName.IsQualifier x ∧ (x = [] → q = []) ∧
      (Text.trim (x ++ segment) ≠ [] → Text.trim (x ++ segment) ∈ candidates (q ++ segment)) := by
  rcases Text.exists_last_piece isSeparator q with hs | ⟨before, sep, x, rfl, hsep, hx⟩
  · exact ⟨q, hq, id, trim_mem_candidates (Unseparated.append hs hsegment)⟩
  · obtain ⟨y, hy⟩ : ∃ y, x = y ++ ['\\'] := by
      rcases hq with hnil | ⟨before', heq⟩
      · simp at hnil
      · rcases List.eq_nil_or_concat' x with rfl | ⟨y, z, rfl⟩
        · have hlast := congrArg List.getLast? heq
          simp only [List.getLast?_concat, Option.some.injEq] at hlast
          rw [hlast] at hsep
          cases hsep
        · have hlast := congrArg List.getLast? heq
          rw [← List.cons_append, ← List.append_assoc, List.getLast?_concat, List.getLast?_concat] at hlast
          exact ⟨y, by rw [Option.some.inj hlast]⟩
    refine ⟨x, .inr ⟨y, hy⟩, fun hnil => by simp [hy] at hnil, fun hne => ?_⟩
    rw [List.append_assoc, List.cons_append, candidates_append_cons hsep]
    exact List.mem_append_right _ (trim_mem_candidates (Unseparated.append hx hsegment) hne)

section Kept

variable {bs : Text} (hbs : ∀ x ∈ bs, x = '\\')

include hbs

theorem unseparated_backslashes : Unseparated bs := by
  intro x hx
  rw [hbs x hx]
  decide

theorem exists_short_eq_of_qualified {q' : Text} (hq : ClassName.IsQualifier q) (hq' : ClassName.IsQualifier q')
    (hsep : Unseparated segment) (hsegment : '\\' ∉ segment) (hsome : ∃ x ∈ segment, Text.isBlank x = false)
    (hend : bs ≠ [] → ∀ x ∈ segment.getLast?, Text.isBlank x = false)
    (hstart : q = [] ∨ q' = [] → ∀ x ∈ segment.head?, Text.isBlank x = false) :
    ∃ c' ∈ candidates (q' ++ (segment ++ bs)), ClassName.short c' = ClassName.short (q ++ segment) := by
  obtain ⟨x, hx, hnil, hmem⟩ := exists_candidate_append hq' (hsep.append (unseparated_backslashes hbs))
  have hne : Text.trim (x ++ (segment ++ bs)) ≠ [] := by
    obtain ⟨y, hy, hblank⟩ := hsome
    exact Text.strip_ne_nil_iff.mpr ⟨y, by simp [hy], hblank⟩
  have hshort : ClassName.short (x ++ segment ++ bs) = ClassName.short (x ++ segment) := by
    by_cases hb : bs = []
    · rw [hb, List.append_nil]
    · refine ClassName.short_append_backslashes hbs fun y hy => hend hb y ?_
      obtain ⟨z, hz, _⟩ := hsome
      rwa [Option.mem_def, List.getLast?_append_of_ne_nil _ (List.ne_nil_of_mem hz)] at hy
  refine ⟨_, hmem hne, ?_⟩
  rw [ClassName.short_trim, ← List.append_assoc, hshort,
    hx.short_append hsegment hsome fun h => hstart (.inr (hnil h)),
    hq.short_append hsegment hsome fun h => hstart (.inl h)]

theorem exists_short_eq_of_mem (hd : ∀ x ∈ d.getLast?, Text.isBlank x = false) (hc : c ∈ candidates d) :
    ∃ c' ∈ candidates (d ++ bs), ClassName.short c' = ClassName.short c := by
  have hpiece : ∀ piece, Unseparated piece → (∀ x ∈ piece.getLast?, Text.isBlank x = false) →
      c ∈ candidates piece → ∃ c' ∈ candidates (piece ++ bs), ClassName.short c' = ClassName.short c := by
    intro piece hp hlast hc
    obtain rfl := eq_trim_of_mem_candidates hp hc
    obtain ⟨x, hx, hblank⟩ := Text.strip_ne_nil_iff.mp (isCandidate_of_mem hc).ne_nil
    have hne : Text.trim (piece ++ bs) ≠ [] :=
      Text.strip_ne_nil_iff.mpr ⟨x, List.mem_append_left bs hx, hblank⟩
    refine ⟨_, trim_mem_candidates (hp.append (unseparated_backslashes hbs)) hne, ?_⟩
    rw [ClassName.short_trim, ClassName.short_trim, ClassName.short_append_backslashes hbs hlast]
  rcases Text.exists_last_piece isSeparator d with hs | ⟨before, sep, piece, rfl, hsep, hp⟩
  · exact hpiece d hs hd hc
  · rw [List.append_assoc, List.cons_append, candidates_append_cons hsep]
    rw [candidates_append_cons hsep, List.mem_append] at hc
    rcases hc with hc | hc
    · exact ⟨c, List.mem_append_left _ hc, rfl⟩
    · have hne : piece ≠ [] := by
        rintro rfl
        cases hc
      have hlast : (before ++ sep :: piece).getLast? = piece.getLast? := by
        rw [List.getLast?_append_cons, List.getLast?_cons_of_ne_nil hne]
      obtain ⟨c', hc', hshort⟩ := hpiece piece hp (hlast ▸ hd) hc
      exact ⟨c', List.mem_append_right _ hc', hshort⟩

end Kept

/-- A type is the qualifier of its first candidate, the segment after it, and what begins with the first separator. -/
structure Divides (d q segment rest : Text) : Prop where
  eq : Text.trim d = q ++ segment ++ rest
  qualifier : ClassName.IsQualifier q
  first : Unseparated (q ++ segment)
  tail : '\\' ∉ segment ++ rest
  more : rest = [] ∨ ∃ sep more, rest = sep :: more ∧ isSeparator sep = true

theorem NamesFirst.exists_divides (hd : NamesFirst d) : ∃ q segment rest, Divides d q segment rest := by
  have hsplit := List.takeWhile_append_dropWhile (p := fun x => !isSeparator x) (l := Text.trim d)
  obtain ⟨q, segment, hq, hqual, hsegment⟩ :=
    ClassName.exists_qualifier ((Text.trim d).takeWhile fun x => !isSeparator x)
  refine ⟨q, segment, (Text.trim d).dropWhile fun x => !isSeparator x, ?_, hqual, ?_, ?_, ?_⟩
  · rw [← hq, hsplit]
  · intro x hx
    rw [← hq] at hx
    simpa using List.mem_takeWhile_imp hx
  · rw [List.mem_append]
    exact not_or.mpr ⟨hsegment, hd.first⟩
  · have hhead := List.head?_dropWhile_not (fun x => !isSeparator x) (Text.trim d)
    cases hrest : (Text.trim d).dropWhile fun x => !isSeparator x with
    | nil => exact .inl rfl
    | cons sep more =>
        rw [hrest] at hhead
        exact .inr ⟨sep, more, rfl, by simpa using hhead⟩

section

variable {rest : Text} (hd : NamesFirst d) (h : Divides d q segment rest) (hc : c ∈ candidates d)

include hd h hc

theorem Divides.named (hmem : c ∈ candidates (q ++ segment)) :
    c = Text.trim (q ++ segment) ∧ ∃ x ∈ segment, Text.isBlank x = false := by
  have heq := eq_trim_of_mem_candidates h.first hmem
  exact ⟨heq, exists_nonblank h.qualifier (heq ▸ (isCandidate_of_mem hmem).ne_nil) (heq ▸ hd.whole c hc)⟩

theorem Divides.short_eq : ClassName.short d = segment ++ rest := by
  have hsome : ∃ x ∈ segment ++ rest, Text.isBlank x = false := by
    rcases h.more with rfl | ⟨sep, more, rfl, hmark⟩
    · have hmem := hc
      rw [← candidates_trim, h.eq, List.append_nil] at hmem
      rw [List.append_nil]
      exact (h.named hd hc hmem).2
    · refine ⟨sep, by simp, ?_⟩
      by_contra hblank
      rw [isSeparator_of_isBlank (by simpa using hblank)] at hmark
      cases hmark
  exact h.qualifier.short_eq h.tail hsome (by rw [h.eq, List.append_assoc])

theorem Divides.exists_short_eq {q' bs : Text} (hqual : ClassName.IsQualifier q') (hbs : ∀ x ∈ bs, x = '\\')
    (hstart : q = [] ∨ q' = [] → ∀ x ∈ segment.head?, Text.isBlank x = false) :
    ∃ c' ∈ candidates (q' ++ (segment ++ rest) ++ bs), ClassName.short c' = ClassName.short c := by
  have hsep : Unseparated segment := fun x hx => h.first x (List.mem_append_right q hx)
  have hsegment : '\\' ∉ segment := fun hx => h.tail (List.mem_append_left rest hx)
  have hends := h.eq ▸ Text.stripped_trim d
  have hmem := hc
  rw [← candidates_trim, h.eq] at hmem
  rcases h.more with rfl | ⟨sep, more, rfl, hmark⟩
  · rw [List.append_nil] at hmem hends
    obtain ⟨rfl, x, hx, hblank⟩ := h.named hd hc hmem
    have hend : ∀ x ∈ segment.getLast?, Text.isBlank x = false := by
      intro y hy
      refine hends.last y ?_
      rwa [Option.mem_def, List.getLast?_append_of_ne_nil _ (List.ne_nil_of_mem hx)]
    rw [List.append_nil, List.append_assoc, ClassName.short_trim]
    exact exists_short_eq_of_qualified hbs h.qualifier hqual hsep hsegment ⟨x, hx, hblank⟩ (fun _ => hend) hstart
  · have hpieces : candidates (q' ++ (segment ++ sep :: more) ++ bs) =
        candidates (q' ++ (segment ++ [])) ++ candidates (more ++ bs) := by
      rw [← candidates_append_cons hmark]
      simp
    rw [hpieces]
    rw [candidates_append_cons hmark, List.mem_append] at hmem
    rcases hmem with hmem | hmem
    · obtain ⟨rfl, hsome⟩ := h.named hd hc hmem
      obtain ⟨c', hc', heq⟩ := exists_short_eq_of_qualified (List.forall_mem_nil (· = '\\')) h.qualifier hqual hsep
        hsegment hsome (fun hne => absurd rfl hne) hstart
      exact ⟨c', List.mem_append_left _ hc', heq.trans (ClassName.short_trim _).symm⟩
    · have hend : ∀ x ∈ more.getLast?, Text.isBlank x = false := by
        intro x hx
        refine hends.last x ?_
        rw [Option.mem_def, List.getLast?_append_cons, List.getLast?_cons, hx]
        rfl
      obtain ⟨c', hc', heq⟩ := exists_short_eq_of_mem hbs hend hmem
      exact ⟨c', List.mem_append_right _ hc', heq⟩

end

/-- Where two types end in the same class name, the one keeps the candidates of the other, if only the first of them
is qualified: what follows that qualifier stands at the end of both. -/
theorem keeps_of_short_eq (hd : NamesFirst d) (hshort : ClassName.short d = ClassName.short t)
    (hc : c ∈ candidates d) : Keeps t c := by
  obtain ⟨q, segment, rest, hdiv⟩ := hd.exists_divides
  obtain ⟨q', bs, heq, hqual, hbs⟩ := ClassName.exists_short_eq (Text.trim_trim t)
  rw [ClassName.short_trim, ← hshort, hdiv.short_eq hd hc] at heq
  have hends := hdiv.eq ▸ Text.stripped_trim d
  have hends' := heq ▸ Text.stripped_trim t
  have hstart : q = [] ∨ q' = [] → ∀ x ∈ segment.head?, Text.isBlank x = false := by
    rintro (rfl | rfl) x hx
    · exact hends.head x (Text.mem_head?_of_prefix ⟨rest, rfl⟩ hx)
    · exact hends'.head x (Text.mem_head?_of_prefix ⟨rest ++ bs, by simp⟩ hx)
  refine .inr ?_
  rw [← candidates_trim t, heq]
  exact hdiv.exists_short_eq hd hc hqual hbs hstart

/-! ### Merging -/

/-- How a documented type and a declared one are merged. -/
inductive Merged (documented declared : Text) : Text → Prop
  | undeclared : Text.trim declared = [] → Merged documented declared (Text.trim documented)
  | unknown : Text.trim declared = [] → Text.trim documented = [] → Merged documented declared "mixed"
  | same : Text.trim documented = Text.trim declared → Merged documented declared (Text.trim documented)
  | array : Text.trim declared = "array" → Text.endsWith (Text.trim documented) "[]" = true →
      Merged documented declared (Text.trim documented)
  | undocumented : Text.trim documented = [] → Merged documented declared (Text.trim declared)
  | named : Text.trim declared ≠ [] → ClassName.short documented = ClassName.short declared →
      Merged documented declared (Text.trim declared)
  | both : ClassName.short documented ≠ ClassName.short declared →
      Merged documented declared (ofCandidates [Text.trim documented, Text.trim declared])

theorem merged_merge (documented declared : Text) : Merged documented declared (merge documented (some declared)) := by
  unfold merge
  by_cases hdeclared : Text.trim declared = []
  · have hnone : ((some declared).map Text.trim).filter (fun d => !d.isEmpty) = none := by
      simp [Option.filter_some, hdeclared]
    simp only [hnone]
    split
    case isTrue hdocumented => exact .unknown hdeclared (List.isEmpty_iff.mp hdocumented)
    case isFalse => exact .undeclared hdeclared
  · have hsome : ((some declared).map Text.trim).filter (fun d => !d.isEmpty) = some (Text.trim declared) := by
      simp [Option.filter_some, hdeclared]
    simp only [hsome, ClassName.short_trim]
    split
    case isTrue h =>
      rcases h with hsame | ⟨harray, hend⟩
      · exact .same hsame
      · exact .array harray hend
    case isFalse =>
      split
      case isTrue hdocumented => exact .undocumented (List.isEmpty_iff.mp hdocumented)
      case isFalse =>
        split
        case isTrue hshort => exact .named hdeclared hshort
        case isFalse hshort => exact .both hshort

/-- What is true of the documented and the declared type is true of the merged one, if it is true of native names and
unions and is not changed by white space around a type. -/
theorem merge_preserves {documented : Text} {declared? : Option Text} {P : Text → Prop} (hmixed : P "mixed")
    (htrim : ∀ t, P t → P (Text.trim t)) (hunion : ∀ s t, P s → P t → P (ofCandidates [s, t]))
    (hdocumented : P documented) (hdeclared : ∀ d ∈ declared?, P d) : P (merge documented declared?) := by
  cases declared? with
  | none =>
      simp only [merge, Option.map_none, Option.filter_none]
      split
      · exact hmixed
      · exact htrim _ hdocumented
  | some d =>
      have hd := htrim d (hdeclared d rfl)
      have ht := htrim documented hdocumented
      have hmerged := merged_merge documented d
      generalize merge documented (some d) = merged at hmerged ⊢
      cases hmerged with
      | undeclared => exact ht
      | unknown => exact hmixed
      | same => exact ht
      | array => exact ht
      | undocumented => exact hd
      | named => exact hd
      | both => exact hunion _ _ ht hd

theorem short_ne_of_endsWith (h : Text.endsWith (Text.trim d) "[]" = true) : ClassName.short d ≠ ("array" : Text) := by
  intro hshort
  obtain ⟨q, bs, hd, _, hbs⟩ := ClassName.exists_short_eq (Text.trim_trim d)
  rw [ClassName.short_trim, hshort] at hd
  obtain ⟨front, hfront⟩ := List.isSuffixOf_iff_suffix.mp h
  have hlast : (Text.trim d).getLast? = some ']' := by
    rw [← hfront]
    simp
  rcases List.eq_nil_or_concat' bs with rfl | ⟨bs, b, rfl⟩
  · rw [hd] at hlast
    simp at hlast
  · rw [hd, ← List.append_assoc, List.getLast?_concat, hbs b (by simp)] at hlast
    cases hlast

section

variable {documented declared type : Text} (hm : Merged documented declared type)

include hm

theorem Merged.mem_of_declared (hc : c ∈ candidates declared) :
    c ∈ candidates type ∨ Text.trim declared = "array" ∧ Text.endsWith (Text.trim documented) "[]" = true := by
  rw [← candidates_trim] at hc
  cases hm with
  | undeclared hdeclared => simp [hdeclared, candidates_nil] at hc
  | unknown hdeclared _ => simp [hdeclared, candidates_nil] at hc
  | same heq => exact .inl (heq ▸ hc)
  | array harray hend => exact .inr ⟨harray, hend⟩
  | undocumented _ => exact .inl hc
  | named _ _ => exact .inl hc
  | both _ => exact .inl (mem_candidates_ofCandidates.mpr ⟨_, by simp, hc⟩)

theorem Merged.keeps_iff (hc : c ∈ candidates documented) :
    Keeps type c ↔ (ClassName.short documented = ClassName.short declared → Text.trim declared ≠ [] →
      Keeps declared c) := by
  rw [← candidates_trim] at hc
  cases hm with
  | undeclared hdeclared => exact iff_of_true (.inl hc) fun _ hne => absurd hdeclared hne
  | unknown _ hdocumented => simp [hdocumented, candidates_nil] at hc
  | same heq =>
      have hkept : Keeps declared c := .inl (by rwa [← candidates_trim, ← heq])
      exact iff_of_true (.inl hc) fun _ _ => hkept
  | array harray hend =>
      refine iff_of_true (.inl hc) fun hshort => absurd ?_ (short_ne_of_endsWith hend)
      rw [hshort, ← ClassName.short_trim, harray]
      decide
  | undocumented hdocumented => simp [hdocumented, candidates_nil] at hc
  | named hne hshort =>
      have htrim : Keeps (Text.trim declared) c ↔ Keeps declared c := by
        rw [Keeps, candidates_trim, ← Keeps]
      exact ⟨fun hkept _ _ => htrim.mp hkept, fun hkept => htrim.mpr (hkept hshort hne)⟩
  | both hshort =>
      refine iff_of_true (.inl (mem_candidates_ofCandidates.mpr ⟨_, List.mem_cons_self, hc⟩)) ?_
      exact fun heq => absurd heq hshort

end

/-- **Merging loses a candidate only where both types end in the same class name.**  All declared candidates are kept,
unless an array is declared and an array of something is documented.  A documented candidate is kept, as it is or
with another namespace, unless the two types end in the same class name and the declared one does not keep it.  None
is lost where only the first documented candidate is qualified. -/
theorem merge_keeps_candidates (documented declared : Text) :
    (∀ c ∈ candidates declared, c ∈ candidates (merge documented (some declared)) ∨
      Text.trim declared = "array" ∧ Text.endsWith (Text.trim documented) "[]" = true) ∧
    (∀ c ∈ candidates documented, Keeps (merge documented (some declared)) c ↔
      (ClassName.short documented = ClassName.short declared → Text.trim declared ≠ [] → Keeps declared c)) ∧
    (NamesFirst documented → ∀ c ∈ candidates documented, Keeps (merge documented (some declared)) c) := by
  have hmerged := merged_merge documented declared
  refine ⟨fun c hc => hmerged.mem_of_declared hc, fun c hc => hmerged.keeps_iff hc, fun hfirst c hc => ?_⟩
  exact (hmerged.keeps_iff hc).mpr fun hshort _ => keeps_of_short_eq hfirst hshort hc

/-- A price from another namespace: the declared one stands for both, and `null` is kept as it is. -/
theorem price_merge_keeps_candidates :
    let merged := merge "\\Shop\\Price/null" (some "\\Money\\Price/null")
    merged = "\\Money\\Price/null".toList ∧ NamesFirst "\\Shop\\Price/null" ∧
      Keeps merged "\\Shop\\Price" ∧ Keeps merged "null" := by
  have hfirst : NamesFirst "\\Shop\\Price/null" := ⟨by decide +kernel, by decide +kernel⟩
  have hkept := (merge_keeps_candidates "\\Shop\\Price/null" "\\Money\\Price/null").2.2 hfirst
  exact ⟨by decide +kernel, hfirst, hkept _ (by decide +kernel), hkept _ (by decide +kernel)⟩

/-- Documented as a number or a price, and declared as a price: the number is lost. -/
theorem price_merge_loses_int :
    "int".toList ∈ candidates "int|\\Shop\\Price" ∧
      merge "int|\\Shop\\Price" (some "\\Money\\Price") = "\\Money\\Price".toList ∧
      ¬ Keeps (merge "int|\\Shop\\Price" (some "\\Money\\Price")) "int" := by
  decide +kernel

end TypeUnion

end ApiPages
