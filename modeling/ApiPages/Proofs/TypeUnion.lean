import ApiPages.Proofs.ClassName
import ApiPages.Proofs.Distinct
import ApiPages.TypeUnion

/-! # Well-formed types

`ofCandidates` writes its candidates so that they are read back as they are (`candidates_ofCandidates`), so
every type that it makes is `WellFormed`, provided that the candidates given to it are `Qualified`: those that
refer to a class are absolute.  `canonical` makes a well-formed type of every text. -/

namespace ApiPages

namespace TypeUnion

variable {c s t ns name : Text} {ts : List Text}

/-! ### Candidates -/

/-- A text without separators. -/
def Unseparated (s : Text) : Prop :=
  ∀ x ∈ s, isSeparator x = false

instance : DecidablePred Unseparated :=
  fun s => List.decidableBAll (fun x => isSeparator x = false) s

/-- A text that is a candidate of its own. -/
structure IsCandidate (c : Text) : Prop where
  ne_nil : c ≠ []
  trimmed : Text.trim c = c
  unseparated : Unseparated c

theorem Unseparated.strip {p : Char → Bool} (h : Unseparated s) : Unseparated (Text.strip p s) :=
  fun x hx => h x (Text.mem_of_mem_strip hx)

theorem Unseparated.append (hs : Unseparated s) (ht : Unseparated t) : Unseparated (s ++ t) :=
  List.forall_mem_append.mpr ⟨hs, ht⟩

theorem Unseparated.display (h : Unseparated name) : Unseparated (ClassName.display name) :=
  List.forall_mem_cons.mpr ⟨by decide, h.strip⟩

theorem isCandidate_of_mem (h : c ∈ candidates t) : IsCandidate c := by
  rw [candidates, List.mem_filter] at h
  obtain ⟨hc, hne⟩ := h
  obtain ⟨piece, hp, rfl⟩ := List.mem_map.mp hc
  have hpiece : Unseparated piece := Text.notMem_of_mem_splitOnP hp
  exact ⟨by simpa using hne, Text.trim_trim piece, hpiece.strip⟩

/-- A text without separators has no candidate but itself. -/
theorem eq_trim_of_mem_candidates (hs : Unseparated s) (hc : c ∈ candidates s) : c = Text.trim s := by
  rw [candidates, List.splitOnP_eq_singleton hs, List.map_singleton, List.mem_filter] at hc
  exact List.mem_singleton.mp hc.1

/-- Candidates are neither trimmed nor left out. -/
theorem filter_map_trim {cs : List Text} (h : ∀ c ∈ cs, IsCandidate c) :
    (cs.map Text.trim).filter (fun c => !c.isEmpty) = cs := by
  rw [List.map_congr_left fun c hc => (h c hc).trimmed, List.map_id', List.filter_eq_self]
  intro c hc
  simpa using (h c hc).ne_nil

/-- Candidates are read back from their join. -/
theorem candidates_join {sep : Char} (hsep : isSeparator sep = true) {cs : List Text}
    (h : ∀ c ∈ cs, IsCandidate c) : candidates (Text.join [sep] cs) = cs := by
  by_cases hcs : cs = []
  · subst hcs
    rfl
  · rw [candidates, Text.splitOnP_join hsep hcs fun c hc => (h c hc).unseparated, filter_map_trim h]

theorem trim_join (sep : Text) {cs : List Text} (h : ∀ c ∈ cs, IsCandidate c) :
    Text.trim (Text.join sep cs) = Text.join sep cs := by
  refine (Text.stripped_join fun c hc => ⟨(h c hc).ne_nil, ?_⟩).strip_eq
  exact (h c hc).trimmed ▸ Text.stripped_trim c

theorem isCandidate_of_mem_eraseDups (h : c ∈ (ts.flatMap candidates).eraseDups) : IsCandidate c := by
  obtain ⟨t, _, hc⟩ := List.mem_flatMap.mp (List.mem_eraseDups.mp h)
  exact isCandidate_of_mem hc

/-- The candidates of a type are those that it was made of. -/
theorem candidates_ofCandidates (ts : List Text) :
    candidates (ofCandidates ts) = (ts.flatMap candidates).eraseDups := by
  rw [ofCandidates]
  exact candidates_join (by decide) fun _ => isCandidate_of_mem_eraseDups

theorem trim_ofCandidates (ts : List Text) : Text.trim (ofCandidates ts) = ofCandidates ts := by
  rw [ofCandidates]
  exact trim_join _ fun _ => isCandidate_of_mem_eraseDups

/-! ### Well-formed types -/

/-- A class name that starts with one backslash and does not end with one. -/
def IsAbsolute (c : Text) : Prop :=
  ∃ rest, c = '\\' :: rest ∧ rest.head? ≠ some '\\' ∧ c.getLast? ≠ some '\\'

/-- All class names among the candidates of a type are absolute. -/
def Qualified (t : Text) : Prop :=
  ∀ c ∈ candidates t, isClassReference c = true → IsAbsolute c

/-- A type as the library writes it. -/
structure WellFormed (t : Text) : Prop where
  /-- It is what its own candidates make. -/
  stable : ofCandidates [t] = t
  /-- The candidates have one `/` between neighbours and nothing else around them. -/
  joined : Text.join ['/'] (candidates t) = t
  distinct : (candidates t).Nodup
  clean : ∀ c ∈ candidates t, IsCandidate c
  qualified : Qualified t

theorem wellFormed_ofCandidates (h : ∀ t ∈ ts, Qualified t) : WellFormed (ofCandidates ts) := by
  have hcs := candidates_ofCandidates ts
  have hnodup := nodup_eraseDups (ts.flatMap candidates)
  have hjoined : Text.join ['/'] (candidates (ofCandidates ts)) = ofCandidates ts := by
    rw [hcs, ofCandidates]
  refine ⟨?_, hjoined, hcs ▸ hnodup, fun _ => isCandidate_of_mem, ?_⟩
  · rw [ofCandidates, List.flatMap_singleton, hcs, eraseDups_eq_self hnodup, ofCandidates]
  · intro c hc
    rw [hcs] at hc
    obtain ⟨t, ht, hc⟩ := List.mem_flatMap.mp (List.mem_eraseDups.mp hc)
    exact h t ht c hc

theorem WellFormed.trim_eq (h : WellFormed t) : Text.trim t = t := by
  rw [← h.stable, trim_ofCandidates]

/-! ### Qualified names -/

theorem isClassReference_trim (s : Text) : isClassReference (Text.trim s) = isClassReference s := by
  rw [isClassReference, Text.trim_trim, ← isClassReference]

/-- A native name that does not end in a backslash is no class name. -/
theorem isClassReference_eq_false_of_isNative (h : isNative name = true)
    (hlast : ∀ x ∈ name.getLast?, ClassName.isOuter x = false) : isClassReference name = false := by
  have hblank : ∀ x ∈ name.getLast?, Text.isBlank x = false := fun x hx =>
    ClassName.isBlank_eq_false_of_isOuter (hlast x hx)
  have htrim : Text.trim name = name.dropWhile Text.isBlank := Text.strip_eq_dropWhile hblank
  have hslash : ∀ x ∈ (Text.trim name).getLast?, ClassName.isBackslash x = false := by
    intro x hx
    rw [htrim, Text.getLast?_dropWhile hblank] at hx
    exact (Bool.or_eq_false_iff.mp (hlast x hx)).1
  have hlower : Text.lower ((Text.trim name).dropWhile ClassName.isBackslash) =
      (Text.lower (Text.trim name)).dropWhile ClassName.isBackslash :=
    (Text.dropWhile_lower ClassName.isBackslash_toLower (Text.trim name)).symm
  rw [isNative, Text.strip_eq_dropWhile hslash, hlower] at h
  have hbrackets : ∀ n ∈ natives, Text.dropEndWhile isBracket n = n := by decide
  have hmem := List.contains_iff_mem.mp h
  rw [isClassReference]
  simp only [hbrackets _ hmem, h, Bool.not_true, Bool.and_false]

/-- One candidate is qualified if it is absolute or no class name. -/
theorem qualified_of_unseparated (hs : Unseparated s)
    (h : isClassReference s = true → IsAbsolute (Text.trim s)) : Qualified s := by
  intro c hc href
  rw [eq_trim_of_mem_candidates hs hc] at href ⊢
  exact h ((isClassReference_trim s).symm.trans href)

theorem isAbsolute_display (h : isClassReference (ClassName.display name) = true) :
    IsAbsolute (ClassName.display name) := by
  have hs := Text.stripped_strip ClassName.isOuter name
  refine ⟨Text.strip ClassName.isOuter name, rfl, ?_, ?_⟩
  · intro hc
    exact ClassName.ne_backslash_of_isOuter (hs.head _ hc) rfl
  · intro hc
    rw [ClassName.display] at h hc
    cases hrest : Text.strip ClassName.isOuter name with
    | nil =>
        rw [hrest] at h
        revert h
        decide
    | cons x rest =>
        rw [hrest, List.getLast?_cons_cons, ← hrest] at hc
        exact ClassName.ne_backslash_of_isOuter (hs.last _ hc) rfl

theorem qualified_display (h : Unseparated name) : Qualified (ClassName.display name) := by
  refine qualified_of_unseparated h.display fun href => ?_
  rw [Text.trim, (ClassName.stripped_display name).strip_eq]
  exact isAbsolute_display href

theorem qualified_qualify (hns : Unseparated ns) (hname : Unseparated name) :
    Qualified (qualify ns name) := by
  unfold qualify
  by_cases href : isClassReference (Text.trim name) = true
  · have hlong : Unseparated (Text.strip ClassName.isBackslash ns ++ '\\' :: Text.trim name) :=
      hns.strip.append (List.forall_mem_cons.mpr ⟨by decide, hname.strip⟩)
    simp only [href, Bool.not_true, Bool.false_eq_true, if_false]
    split
    · exact qualified_display hname.strip
    · exact qualified_display hlong
  · simp only [href, Bool.not_false, if_true]
    exact qualified_of_unseparated hname.strip fun h => absurd h href

theorem qualified_of_mem_natives (h : t ∈ natives) : Qualified t := by
  have hall : ∀ n ∈ natives, Unseparated n ∧ isClassReference n = false := by
    decide +kernel
  obtain ⟨hsep, href⟩ := hall t h
  refine qualified_of_unseparated hsep fun ht => ?_
  rw [href] at ht
  cases ht

theorem wellFormed_of_mem_natives (h : t ∈ natives) : WellFormed t := by
  have hall : ∀ n ∈ natives, ofCandidates [n] = n := by decide +kernel
  rw [← hall t h]
  refine wellFormed_ofCandidates fun n hn => ?_
  obtain rfl := List.mem_singleton.mp hn
  exact qualified_of_mem_natives h

theorem qualified_of_mem_expand (hns : Unseparated ns) (hc : Unseparated c) (h : t ∈ expand ns c) :
    Qualified t := by
  unfold expand at h
  split at h
  case h_1 inner =>
    rcases List.mem_pair.mp h with rfl | rfl
    · exact qualified_qualify hns fun x hx => hc x (List.mem_cons_of_mem _ hx)
    · exact qualified_of_mem_natives (by decide)
  case h_2 =>
    obtain rfl := List.mem_singleton.mp h
    exact qualified_qualify hns hc

/-- The normal form of any text is well formed. -/
theorem wellFormed_canonical (hns : Unseparated ns) (type : Text) : WellFormed (canonical ns type) := by
  refine wellFormed_ofCandidates fun t ht => ?_
  obtain ⟨c, hc, ht⟩ := List.mem_flatMap.mp ht
  exact qualified_of_mem_expand hns (isCandidate_of_mem hc).unseparated ht

example : canonical "Shop" " Item[] |?\\Price\\||Item[]" =
    ("\\Shop\\Item[]/\\Price/null" : Text) := by
  decide +kernel

end TypeUnion

end ApiPages
