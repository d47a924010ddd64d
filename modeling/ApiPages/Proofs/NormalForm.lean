import ApiPages.Proofs.Candidate

/-! # The normal form of a type

A type is in normal form if it is well formed and none of its candidates is nullable (`IsNormal`).  Such a type stands
for itself in every namespace (`IsNormal.canonical_eq`).  What `canonical` makes of a text is well formed, and a name
that starts with `?` is always a class name, so that it is qualified and starts with a backslash afterwards: the result
is in normal form (`isNormal_canonical`).  So `canonical` has nothing left to do when it is applied again
(`canonical_normalizes`).

White space would break this.  It keeps a candidate from being a class name, and then a second `?` stays. -/

namespace ApiPages

namespace TypeUnion

variable {c t ns name type : Text}

/-! ### Types in normal form -/

/-- A well-formed type in which all nullable candidates are spelled out. -/
structure IsNormal (type : Text) : Prop where
  wellFormed : WellFormed type
  spelledOut : ∀ c ∈ candidates type, c.head? ≠ some '?'

theorem isBlank_of_isClassReference (h : isClassReference c = true) : ∀ x ∈ Text.trim c, Text.isBlank x = false := by
  intro x hx
  simp only [isClassReference, Bool.and_eq_true, Bool.not_eq_true', List.any_eq_false] at h
  exact Bool.eq_false_iff.mpr (h.1.1.2 x hx)

theorem IsAbsolute.display_eq (h : IsAbsolute c) (hblank : ∀ x ∈ c, Text.isBlank x = false) :
    ClassName.display c = c := by
  obtain ⟨rest, rfl, hhead, hlast⟩ := h
  have houter : ∀ x ∈ rest, x ≠ '\\' → ClassName.isOuter x = false := by
    intro x hx hne
    rw [ClassName.isOuter, hblank x (List.mem_cons_of_mem _ hx), Bool.or_false, beq_eq_false_iff_ne]
    exact hne
  refine ClassName.display_of_stripped ⟨fun x hx => ?_, fun x hx => ?_⟩
  · refine houter x (List.mem_of_mem_head? hx) ?_
    rintro rfl
    exact hhead hx
  · refine houter x (List.mem_of_getLast? hx) ?_
    rintro rfl
    rw [List.getLast?_cons, hx] at hlast
    exact hlast rfl

/-- A candidate that is an absolute name or no class name is qualified already. -/
theorem IsCandidate.qualify_eq_self (hc : IsCandidate c) (h : isClassReference c = true → IsAbsolute c) :
    TypeUnion.qualify ns c = c := by
  simp only [TypeUnion.qualify, hc.trimmed]
  by_cases href : isClassReference c = true
  · have hshown : ClassName.display c = c := (h href).display_eq (hc.trimmed ▸ isBlank_of_isClassReference href)
    obtain ⟨rest, rfl, _⟩ := h href
    simp [href, hshown]
  · simp [href]

theorem IsNormal.canonical_eq (h : IsNormal t) (ns : Text) : canonical ns t = t := by
  have hexpand : (candidates t).flatMap (expand ns) = candidates t := by
    have hsingle : ∀ c ∈ candidates t, expand ns c = [c] := by
      intro c hc
      rw [expand_of_head (h.spelledOut c hc),
        (h.wellFormed.clean c hc).qualify_eq_self (h.wellFormed.qualified c hc)]
    rw [List.flatMap_congr hsingle, List.flatMap_singleton']
  have hread : (candidates t).flatMap candidates = candidates t := by
    rw [List.flatMap_congr fun c hc => (h.wellFormed.clean c hc).candidates_eq, List.flatMap_singleton']
  rw [canonical, hexpand, ofCandidates, hread, eraseDups_eq_self h.wellFormed.distinct, h.wellFormed.joined]

theorem isCandidate_of_mem_natives (h : t ∈ natives) : IsCandidate t := by
  have hall : ∀ n ∈ natives, n ∈ candidates n := by decide +kernel
  exact isCandidate_of_mem (hall t h)

theorem isNormal_of_mem_natives (h : t ∈ natives) : IsNormal t := by
  have hall : ∀ n ∈ natives, n.head? ≠ some '?' := by decide
  refine ⟨wellFormed_of_mem_natives h, fun c hc => ?_⟩
  rw [(isCandidate_of_mem_natives h).candidates_eq, List.mem_singleton] at hc
  rw [hc]
  exact hall t h

/-! ### Nullable candidates -/

/-- The mark of a nullable candidate belongs to a class name, if it is not read as a mark. -/
theorem isClassReference_mark (h : ∀ x ∈ name, Text.isBlank x = false) : isClassReference ('?' :: name) = true := by
  have hblank : ∀ x ∈ '?' :: name, Text.isBlank x = false := List.forall_mem_cons.mpr ⟨by decide, h⟩
  have hbase : Text.dropEndWhile isBracket ((Text.lower ('?' :: name)).dropWhile ClassName.isBackslash) =
      '?' :: Text.dropEndWhile isBracket (Text.lower name) := by
    rw [Text.lower, List.map_cons, List.dropWhile_cons_of_neg (by decide)]
    exact Text.dropEndWhile_cons (by decide) _
  have hnative : ∀ rest : Text, natives.contains ('?' :: rest) = false := by
    have hhead : ∀ n ∈ natives, n.head? ≠ some '?' := by decide
    intro rest
    rw [Bool.eq_false_iff, ne_eq, List.contains_iff_mem]
    exact fun hmem => hhead _ hmem rfl
  have hany : ('?' :: name).any Text.isBlank = false := by
    rw [List.any_eq_false]
    exact fun x hx => Bool.eq_false_iff.mp (hblank x hx)
  simp only [isClassReference, Text.trim_eq_self hblank, hbase, hnative, hany]
  rfl

theorem head?_ne_mark (h : ∀ x ∈ name, Text.isBlank x = false) (href : isClassReference name = false) :
    name.head? ≠ some '?' := by
  intro hhead
  obtain ⟨rest, rfl⟩ := List.head?_eq_some_iff.mp hhead
  rw [isClassReference_mark fun x hx => h x (List.mem_cons_of_mem _ hx)] at href
  cases href

theorem head?_qualify (h : ∀ x ∈ name, Text.isBlank x = false) : (qualify ns name).head? ≠ some '?' := by
  simp only [qualify, Text.trim_eq_self h]
  by_cases href : isClassReference name = true
  · simp only [href, Bool.not_true, Bool.false_eq_true, if_false]
    split <;> simp [ClassName.display]
  · simp only [href, Bool.not_false, if_true]
    exact head?_ne_mark h (by simpa using href)

theorem isNormal_canonical (hns : Unseparated ns) (htype : ∀ x ∈ type, Text.isBlank x = false) :
    IsNormal (canonical ns type) := by
  refine ⟨wellFormed_canonical hns type, fun c hc => ?_⟩
  obtain ⟨part, hpart, hc⟩ := mem_candidates_ofCandidates.mp hc
  obtain ⟨d, hd, hpart⟩ := List.mem_flatMap.mp hpart
  have hblank : ∀ x ∈ d, Text.isBlank x = false := fun x hx => htype x (mem_of_mem_candidates hd hx)
  have hsep := (isCandidate_of_mem hd).unseparated
  have hqualified : ∀ s : Text, (∀ x ∈ s, x ∈ d) → c ∈ candidates (qualify ns s) → c.head? ≠ some '?' := by
    intro s hs hc
    have hs' : ∀ x ∈ s, Text.isBlank x = false := fun x hx => hblank x (hs x hx)
    by_cases hnil : s = []
    · subst hnil
      cases hc
    · have hcand : IsCandidate s := ⟨hnil, Text.trim_eq_self hs', fun x hx => hsep x (hs x hx)⟩
      rw [(hcand.qualify hns).candidates_eq, List.mem_singleton] at hc
      rw [hc]
      exact head?_qualify hs'
  unfold expand at hpart
  split at hpart
  case h_1 inner =>
    rcases List.mem_pair.mp hpart with rfl | rfl
    · exact hqualified inner (fun x hx => List.mem_cons_of_mem _ hx) hc
    · have hnull : ∀ c ∈ candidates "null", c.head? ≠ some '?' := by decide
      exact hnull c hc
  case h_2 =>
    obtain rfl := List.mem_singleton.mp hpart
    exact hqualified d (fun x hx => hx) hc

/-- **Qualifying a type brings it into a normal form.**  If there is no white space in the type and no separator in the
namespace, doing it again changes nothing, and exactly the types in normal form are left as they are.  The normal form
of a union is made of the normal forms of its two sides, whatever they are. -/
theorem canonical_normalizes :
    (∀ ns type : Text, Unseparated ns → (∀ x ∈ type, Text.isBlank x = false) →
      canonical ns (canonical ns type) = canonical ns type ∧ (canonical ns type = type ↔ IsNormal type)) ∧
    ∀ ns a b : Text, canonical ns (a ++ '|' :: b) = ofCandidates [canonical ns a, canonical ns b] := by
  refine ⟨fun ns type hns htype => ?_, canonical_append_cons (by decide)⟩
  have hnormal := isNormal_canonical hns htype
  exact ⟨hnormal.canonical_eq ns, fun heq => heq ▸ hnormal, fun h => h.canonical_eq ns⟩

example : canonical "" "??a b" = "?a b/null".toList ∧ canonical "" "?a b/null" = "a b/null".toList := by
  decide +kernel

/-- Candidates with two marks, outer backslashes, a native name with a backslash at its end, and brackets alone. -/
def oddities : Text :=
  "??Item|int\\|?\\\\Price\\||[]/?|?int"

/-- They are brought into a normal form, which is left as it is, also as a part of a union. -/
theorem oddities_normalized :
    let shown := canonical "Shop" oddities
    shown = "\\Shop\\?Item/null/\\Shop\\int/\\Price/[]/int".toList ∧ canonical "Shop" shown = shown ∧
      oddities ≠ shown ∧ ¬ IsNormal oddities ∧
      canonical "Shop" (oddities ++ '|' :: oddities) = ofCandidates [shown, shown] := by
  obtain ⟨hnormal, hunion⟩ := canonical_normalizes
  have hblank : ∀ x ∈ oddities, Text.isBlank x = false := by
    have hany : oddities.any Text.isBlank = false := by decide
    simpa using hany
  obtain ⟨hagain, hfixed⟩ := hnormal "Shop" oddities (by decide) hblank
  have hne : oddities ≠ canonical "Shop" oddities := by decide +kernel
  exact ⟨by decide +kernel, hagain, hne, fun h => hne (hfixed.mpr h).symm, hunion "Shop" oddities oddities⟩

end TypeUnion

end ApiPages
