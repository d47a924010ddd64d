import ApiPages.Proofs.TypeUnion

/-! # Types read piece by piece

A separator parts the candidates before it from those after it (`candidates_append_cons`), and what follows the last
separator is one candidate or none (`candidates_of_unseparated`).  White space around a type does not count
(`candidates_trim`).  A union is read back from its text, so unions of unions are unions of all their candidates
(`ofCandidates_read_back`).

`canonical` works on each candidate alone: the normal form of a union is the union of the normal forms
(`canonical_ofCandidates`, `canonical_append_cons`). -/

namespace ApiPages

namespace TypeUnion

variable {c s t ns : Text} {sep blank : Char}

/-! ### Pieces -/

theorem candidates_nil : candidates [] = [] := by decide

theorem candidates_append_cons (hsep : isSeparator sep = true) (s t : Text) :
    candidates (s ++ sep :: t) = candidates s ++ candidates t := by
  simp only [candidates, List.splitOnP_append_cons s t hsep, List.map_append, List.filter_append]

theorem candidates_of_unseparated (hs : Unseparated s) :
    candidates s = if Text.trim s = [] then [] else [Text.trim s] := by
  rw [candidates, List.splitOnP_eq_singleton hs, List.map_singleton, List.filter_cons]
  by_cases ht : Text.trim s = [] <;> simp [ht]

theorem trim_mem_candidates (hs : Unseparated s) (h : Text.trim s ≠ []) : Text.trim s ∈ candidates s := by
  rw [candidates_of_unseparated hs, if_neg h]
  exact List.mem_singleton_self _

theorem IsCandidate.candidates_eq (h : IsCandidate c) : candidates c = [c] := by
  rw [candidates_of_unseparated h.unseparated, h.trimmed, if_neg h.ne_nil]

theorem IsCandidate.ofCandidates_eq (h : IsCandidate c) : ofCandidates [c] = c := by
  rw [ofCandidates, List.flatMap_singleton, h.candidates_eq, eraseDups_eq_self (List.nodup_singleton c)]
  exact List.intercalate_singleton

theorem mem_of_mem_candidates {x : Char} (hc : c ∈ candidates t) (hx : x ∈ c) : x ∈ t := by
  obtain ⟨piece, hp, rfl⟩ := List.mem_map.mp (List.mem_filter.mp hc).1
  exact Text.mem_of_mem_splitOnP hp (Text.mem_of_mem_strip hx)

/-! ### White space -/

theorem isSeparator_of_isBlank (h : Text.isBlank blank = true) : isSeparator blank = false := by
  rw [isSeparator, Bool.or_eq_false_iff, beq_eq_false_iff_ne, beq_eq_false_iff_ne]
  constructor <;> rintro rfl <;> revert h <;> decide

theorem candidates_cons_blank (h : Text.isBlank blank = true) (s : Text) :
    candidates (blank :: s) = candidates s := by
  have hpieces := Text.map_splitOnP_cons (f := Text.trim) (fun _ => Text.strip_cons_of_pos)
    (fun _ => isSeparator_of_isBlank) h s
  rw [candidates, hpieces, ← candidates]

/-- Trimming a type keeps its candidates. -/
theorem candidates_trim (s : Text) : candidates (Text.trim s) = candidates s := by
  have hpieces := Text.map_splitOnP_strip (f := Text.trim) (fun _ => Text.strip_cons_of_pos)
    (fun _ => Text.strip_concat_of_pos) (fun _ => isSeparator_of_isBlank) s
  rw [candidates, Text.trim, hpieces, ← candidates]

/-! ### Unions of unions -/

theorem mem_candidates_ofCandidates {ts : List Text} :
    c ∈ candidates (ofCandidates ts) ↔ ∃ t ∈ ts, c ∈ candidates t := by
  rw [candidates_ofCandidates, List.mem_eraseDups, List.mem_flatMap]

/-- A union may be given by its candidates. -/
theorem ofCandidates_ofCandidates_cons (ts us : List Text) :
    ofCandidates (ofCandidates ts :: us) = ofCandidates (ts ++ us) := by
  have hparts : (ofCandidates ts :: us).flatMap candidates =
      (ts.flatMap candidates).eraseDups ++ us.flatMap candidates := by
    rw [List.flatMap_cons, candidates_ofCandidates]
  rw [ofCandidates, hparts, eraseDups_eraseDups_append, ← List.flatMap_append, ← ofCandidates]

/-- The first candidate of a union is the first one of which it is made. -/
theorem IsCandidate.eq_of_ofCandidates_eq {c' : Text} {ts ts' : List Text} (hc : IsCandidate c) (hc' : IsCandidate c')
    (h : ofCandidates (c :: ts) = ofCandidates (c' :: ts')) : c = c' := by
  have hall := congrArg candidates h
  rw [candidates_ofCandidates, candidates_ofCandidates, List.flatMap_cons, List.flatMap_cons, hc.candidates_eq,
    hc'.candidates_eq, List.singleton_append, List.singleton_append, List.eraseDups_cons, List.eraseDups_cons] at hall
  exact (List.cons.inj hall).1

/-- Parts of a union may be joined first. -/
theorem ofCandidates_flatMap {α : Type} (f : α → List Text) (as : List α) :
    ofCandidates (as.flatMap f) = ofCandidates (as.map fun a => ofCandidates (f a)) := by
  have hparts : (as.map fun a => ofCandidates (f a)).flatMap candidates =
      as.flatMap fun a => ((f a).flatMap candidates).eraseDups := by
    simp only [List.flatMap_map, candidates_ofCandidates]
  rw [ofCandidates, ofCandidates, hparts, eraseDups_flatMap_eraseDups, List.flatMap_assoc]

theorem ofCandidates_flatMap_eraseDups (f : Text → List Text) (cs : List Text) :
    ofCandidates (cs.eraseDups.flatMap f) = ofCandidates (cs.flatMap f) := by
  simp only [ofCandidates, List.flatMap_assoc, eraseDups_eraseDups_flatMap]

/-- **A union is read back from its text.**  Its candidates are those of the texts that it was made of, without repeats
and in the order in which they first occur, and no other list is.  So a union that is made of a union is the same one,
and parts of a union may be joined first. -/
theorem ofCandidates_read_back (ts us : List Text) :
    candidates (ofCandidates ts) = (ts.flatMap candidates).eraseDups ∧
    (∀ cs, FirstOfEach (ts.flatMap candidates) cs ↔ cs = candidates (ofCandidates ts)) ∧
    ofCandidates [ofCandidates ts] = ofCandidates ts ∧
    ofCandidates (ts ++ us) = ofCandidates [ofCandidates ts, ofCandidates us] := by
  have hread := candidates_ofCandidates ts
  refine ⟨hread, fun cs => ?_, ?_, ?_⟩
  · rw [hread]
    exact firstOfEach_iff
  · rw [ofCandidates_ofCandidates_cons, List.append_nil]
  · have hparts := ofCandidates_flatMap id [ts, us]
    simpa using hparts

example : ofCandidates [" int|/ Foo\u00a0", "a b/int||Foo", "/"] = "int/Foo/a b".toList := by
  decide +kernel

/-- The normal form of a union is the union of the normal forms. -/
theorem canonical_ofCandidates (ns : Text) (ts : List Text) :
    canonical ns (ofCandidates ts) = ofCandidates (ts.map (canonical ns)) := by
  rw [canonical, candidates_ofCandidates, ofCandidates_flatMap_eraseDups, List.flatMap_assoc, ofCandidates_flatMap]
  rfl

/-- The normal form of a union is made of the normal forms of its parts. -/
theorem canonical_append_cons (hsep : isSeparator sep = true) (ns s t : Text) :
    canonical ns (s ++ sep :: t) = ofCandidates [canonical ns s, canonical ns t] := by
  have hparts := ofCandidates_flatMap (fun type => (candidates type).flatMap (expand ns)) [s, t]
  rw [canonical, candidates_append_cons hsep, List.flatMap_append]
  simpa [canonical] using hparts

/-! ### The normal form of one candidate -/

theorem isCandidate_display (h : Unseparated s) : IsCandidate (ClassName.display s) :=
  ⟨List.cons_ne_nil _ _, (ClassName.stripped_display s).strip_eq, h.display⟩

theorem expand_of_head (h : c.head? ≠ some '?') : expand ns c = [qualify ns c] := by
  unfold expand
  split
  · exact absurd rfl h
  · rfl

section

variable (hc : IsCandidate c)

include hc

theorem IsCandidate.qualify (hns : Unseparated ns) : IsCandidate (qualify ns c) := by
  have hlong : Unseparated (Text.strip ClassName.isBackslash ns ++ '\\' :: c) :=
    hns.strip.append (List.forall_mem_cons.mpr ⟨by decide, hc.unseparated⟩)
  simp only [TypeUnion.qualify, hc.trimmed]
  split
  · exact hc
  · split
    · exact isCandidate_display hc.unseparated
    · exact isCandidate_display hlong

theorem IsCandidate.canonical_eq_expand (ns : Text) : canonical ns c = ofCandidates (expand ns c) := by
  rw [canonical, hc.candidates_eq, List.flatMap_singleton]

theorem IsCandidate.canonical_eq (hns : Unseparated ns) (hhead : c.head? ≠ some '?') :
    canonical ns c = TypeUnion.qualify ns c := by
  rw [hc.canonical_eq_expand, expand_of_head hhead, (hc.qualify hns).ofCandidates_eq]

/-- A name that starts with a backslash does not lie in the namespace. -/
theorem IsCandidate.canonical_rooted (hhead : c.head? = some '\\') (ns : Text) :
    canonical ns c = if isClassReference c then ClassName.display c else c := by
  have hqualify : TypeUnion.qualify ns c = if isClassReference c then ClassName.display c else c := by
    by_cases href : isClassReference c = true <;> simp [TypeUnion.qualify, hc.trimmed, hhead, href]
  rw [hc.canonical_eq_expand, expand_of_head (by simp [hhead]), hqualify]
  split
  · exact (isCandidate_display hc.unseparated).ofCandidates_eq
  · exact hc.ofCandidates_eq

end

/-- The normal form is made candidate by candidate. -/
theorem canonical_eq_ofCandidates (ns type : Text) :
    canonical ns type = ofCandidates ((candidates type).map (canonical ns)) := by
  have heach : ∀ c ∈ candidates type, canonical ns c = ofCandidates (expand ns c) := fun c hc =>
    (isCandidate_of_mem hc).canonical_eq_expand ns
  rw [canonical, ofCandidates_flatMap, List.map_congr_left heach]

/-- A class name in the form that is shown is in normal form. -/
theorem canonical_of_display (hshown : ClassName.display c = c) (hsep : Unseparated c) : canonical ns c = c := by
  have hc : IsCandidate c := hshown ▸ isCandidate_display hsep
  have hhead : c.head? = some '\\' := by
    rw [← hshown]
    rfl
  rw [hc.canonical_rooted hhead, hshown, ite_self]

end TypeUnion

end ApiPages
