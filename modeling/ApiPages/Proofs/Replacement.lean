import Mathlib.Data.List.Infix
import ApiPages.Proofs.Lines

/-! # Replaced occurrences

A text is replaced from the left: an occurrence of the mark goes, any other character stays (`replaceAll_induction`).  So
it is replaced part by part wherever no occurrence reaches from one part into another: around a character that is not in
the mark (`replaceAll_append_cons`), and around a longer text with which no occurrence can overlap (`Parts`). -/

namespace ApiPages

namespace Text

variable {mark new s t u : Text} {c x : Char}

theorem replaceAll_nil (mark new : Text) : replaceAll mark new [] = [] := by
  rw [replaceAll]

theorem replaceAll_cons_kept (h : ¬ mark <+: c :: s) :
    replaceAll mark new (c :: s) = c :: replaceAll mark new s := by
  rw [replaceAll, if_neg (mt List.isPrefixOf_iff_prefix.mp h)]

theorem replaceAll_mark_append (hne : mark ≠ []) (s : Text) :
    replaceAll mark new (mark ++ s) = new ++ replaceAll mark new s := by
  obtain ⟨m, mark, rfl⟩ := List.exists_cons_of_ne_nil hne
  have hfound : (m :: mark).isPrefixOf (m :: (mark ++ s)) = true :=
    List.isPrefixOf_iff_prefix.mpr (List.prefix_append (m :: mark) s)
  rw [List.cons_append, replaceAll, if_pos hfound, List.length_cons, Nat.add_sub_cancel, List.drop_left]

/-- What is shown of a text by the steps of a replacement. -/
theorem replaceAll_induction (hne : mark ≠ []) {motive : Text → Prop} (nil : motive [])
    (found : ∀ s, motive s → motive (mark ++ s))
    (kept : ∀ c s, ¬ mark <+: c :: s → motive s → motive (c :: s)) (s : Text) : motive s := by
  match s with
  | [] => exact nil
  | c :: s =>
      by_cases h : mark <+: c :: s
      · obtain ⟨rest, hrest⟩ := h
        have hshorter : rest.length < s.length + 1 := by
          have hlength := congrArg List.length hrest
          have hmark := List.length_pos_iff.mpr hne
          simp only [List.length_append, List.length_cons] at hlength
          omega
        rw [← hrest]
        exact found rest (replaceAll_induction hne nil found kept rest)
      · exact kept c s h (replaceAll_induction hne nil found kept s)
termination_by s.length

/-! ### Characters -/

theorem mem_of_mem_replaceAll (hne : mark ≠ []) (h : x ∈ replaceAll mark new s) : x ∈ new ∨ x ∈ s := by
  induction s using replaceAll_induction hne with
  | nil =>
      rw [replaceAll_nil] at h
      cases h
  | found s ih =>
      rw [replaceAll_mark_append hne, List.mem_append] at h
      exact h.elim .inl fun h => (ih h).imp_right (List.mem_append_right mark)
  | kept c s hc ih =>
      rw [replaceAll_cons_kept hc] at h
      rcases List.mem_cons.mp h with rfl | h
      · exact .inr List.mem_cons_self
      · exact (ih h).imp_right (List.mem_cons_of_mem c)

theorem mem_replaceAll (hne : mark ≠ []) (hx : x ∉ mark) (h : x ∈ s) : x ∈ replaceAll mark new s := by
  induction s using replaceAll_induction hne with
  | nil => cases h
  | found s ih =>
      rw [replaceAll_mark_append hne]
      exact List.mem_append_right new (ih ((List.mem_append.mp h).resolve_left hx))
  | kept c s hc ih =>
      rw [replaceAll_cons_kept hc]
      rcases List.mem_cons.mp h with rfl | h
      · exact List.mem_cons_self
      · exact List.mem_cons_of_mem c (ih h)

/-! ### Parts -/

/-- A character that is not in the mark parts what is replaced before it from what is replaced after it. -/
theorem replaceAll_append_cons (hne : mark ≠ []) (hx : x ∉ mark) (s t : Text) :
    replaceAll mark new (s ++ x :: t) = replaceAll mark new s ++ x :: replaceAll mark new t := by
  induction s using replaceAll_induction hne with
  | nil =>
      have hnot : ¬ mark <+: x :: t := by
        rw [← List.isPrefixOf_iff_prefix, ← List.nil_append (x :: t), isPrefixOf_append_cons hx,
          List.isPrefixOf_iff_prefix, List.prefix_nil]
        exact hne
      rw [List.nil_append, replaceAll_cons_kept hnot, replaceAll_nil, List.nil_append]
  | found s ih => rw [List.append_assoc, replaceAll_mark_append hne, ih, replaceAll_mark_append hne, List.append_assoc]
  | kept c s hc ih =>
      have hnot : ¬ mark <+: c :: (s ++ x :: t) := by
        rwa [← List.cons_append, ← List.isPrefixOf_iff_prefix, isPrefixOf_append_cons hx, List.isPrefixOf_iff_prefix]
      rw [List.cons_append, replaceAll_cons_kept hnot, ih, replaceAll_cons_kept hc, List.cons_append]

theorem replaceAll_append_of_head (hne : mark ≠ []) (ht : ∀ x ∈ t.head?, x ∉ mark) (s : Text) :
    replaceAll mark new (s ++ t) = replaceAll mark new s ++ replaceAll mark new t := by
  cases t with
  | nil => rw [replaceAll_nil, List.append_nil, List.append_nil]
  | cons x t =>
      have hx := ht x rfl
      have hfirst : replaceAll mark new ([] ++ x :: t) = replaceAll mark new [] ++ x :: replaceAll mark new t :=
        replaceAll_append_cons hne hx [] t
      rw [List.nil_append, replaceAll_nil, List.nil_append] at hfirst
      rw [replaceAll_append_cons hne hx, hfirst]

theorem replaceAll_append_of_last (hne : mark ≠ []) (hs : ∀ x ∈ s.getLast?, x ∉ mark) (t : Text) :
    replaceAll mark new (s ++ t) = replaceAll mark new s ++ replaceAll mark new t := by
  rcases List.eq_nil_or_concat' s with rfl | ⟨s, x, rfl⟩
  · rw [replaceAll_nil, List.nil_append, List.nil_append]
  · have hx := hs x List.getLast?_concat
    have hlast : replaceAll mark new (s ++ [x]) = replaceAll mark new s ++ x :: replaceAll mark new [] :=
      replaceAll_append_cons hne hx s []
    rw [replaceAll_nil] at hlast
    rw [List.append_assoc, List.singleton_append, replaceAll_append_cons hne hx, hlast, List.append_assoc,
      List.singleton_append]

theorem replaceAll_concat (hne : mark ≠ []) (h : ¬ mark <:+ s ++ [c]) :
    replaceAll mark new (s ++ [c]) = replaceAll mark new s ++ [c] := by
  induction s using replaceAll_induction hne with
  | nil =>
      have hnot : ¬ mark <+: [c] := by
        rw [← List.nil_append [c], List.prefix_concat_iff, List.prefix_nil, not_or]
        refine ⟨?_, hne⟩
        rintro rfl
        exact h List.suffix_rfl
      rw [List.nil_append, replaceAll_cons_kept hnot, replaceAll_nil, List.nil_append]
  | found s ih =>
      have hrest : ¬ mark <:+ s ++ [c] := by
        intro hs
        rw [List.append_assoc] at h
        exact h (List.suffix_append_of_suffix hs)
      rw [List.append_assoc, replaceAll_mark_append hne, ih hrest, replaceAll_mark_append hne, List.append_assoc]
  | kept d s hd ih =>
      have hnot : ¬ mark <+: d :: (s ++ [c]) := by
        rw [← List.cons_append, List.prefix_concat_iff, not_or]
        refine ⟨?_, hd⟩
        rintro rfl
        exact h List.suffix_rfl
      have hrest : ¬ mark <:+ s ++ [c] := fun hs => h (hs.trans (List.suffix_cons d _))
      rw [List.cons_append, replaceAll_cons_kept hnot, ih hrest, replaceAll_cons_kept hd,
        List.cons_append]

/-- A text inside which no occurrence ends is put behind what is replaced. -/
theorem replaceAll_append_of_no_end (hne : mark ≠ []) (h : ∀ u, u <+: t → u ≠ [] → ¬ mark <:+ s ++ u) :
    replaceAll mark new (s ++ t) = replaceAll mark new s ++ t := by
  induction t using List.reverseRecOn with
  | nil => rw [List.append_nil, List.append_nil]
  | append_singleton t c ih =>
      have hlast : ¬ mark <:+ s ++ t ++ [c] := by
        rw [List.append_assoc]
        exact h (t ++ [c]) List.prefix_rfl (by simp)
      have hrest := ih fun u hu => h u (hu.trans (List.prefix_append t [c]))
      rw [← List.append_assoc, replaceAll_concat hne hlast, hrest, List.append_assoc]

/-- A text inside which no occurrence begins is put before what is replaced. -/
theorem replaceAll_append_of_no_start (h : ∀ u, u <:+ s → u ≠ [] → ¬ mark <+: u ++ t) :
    replaceAll mark new (s ++ t) = s ++ replaceAll mark new t := by
  induction s with
  | nil => rfl
  | cons c s ih =>
      have hnot : ¬ mark <+: c :: (s ++ t) := h (c :: s) List.suffix_rfl (List.cons_ne_nil c s)
      have hrest := ih fun u hu => h u (hu.trans (List.suffix_cons c s))
      rw [List.cons_append, replaceAll_cons_kept hnot, hrest, List.cons_append]

/-- No occurrence begins inside a text in which the mark does not occur, if none can reach beyond its end. -/
theorem replaceAll_append_of_absent (habsent : ¬ mark <:+: s) (hstart : ∀ u ∈ s.tails, u ≠ [] → ¬ u <+: mark)
    (t : Text) : replaceAll mark new (s ++ t) = s ++ replaceAll mark new t := by
  refine replaceAll_append_of_no_start fun u hu hne hmark => ?_
  rcases List.prefix_or_prefix_of_prefix hmark (List.prefix_append u t) with hle | hle
  · exact habsent (hle.isInfix.trans hu.isInfix)
  · exact hstart u ((List.mem_tails _ _).mpr hu) hne hle

/-- A text with which no occurrence of the mark can overlap, whatever stands around it. -/
structure Parts (mark s : Text) : Prop where
  other : ∃ x ∈ s, x ∉ mark
  absent : ¬ mark <:+: s
  noEnd : ∀ u ∈ s.inits, u ≠ [] → ¬ u <:+ mark
  noStart : ∀ u ∈ s.tails, u ≠ [] → ¬ u <+: mark

instance (mark s : Text) : Decidable (Parts mark s) :=
  letI : Decidable (∃ x ∈ s, x ∉ mark) := List.decidableBEx (· ∉ mark) s
  decidable_of_iff
    ((∃ x ∈ s, x ∉ mark) ∧ ¬ mark <:+: s ∧ (∀ u ∈ s.inits, u ≠ [] → ¬ u <:+ mark) ∧
      ∀ u ∈ s.tails, u ≠ [] → ¬ u <+: mark)
    ⟨fun ⟨hother, habsent, hend, hstart⟩ => ⟨hother, habsent, hend, hstart⟩,
      fun h => ⟨h.other, h.absent, h.noEnd, h.noStart⟩⟩

theorem Parts.replaceAll_append (h : Parts mark u) (hne : mark ≠ []) (s t : Text) :
    replaceAll mark new (s ++ u ++ t) = replaceAll mark new s ++ u ++ replaceAll mark new t := by
  obtain ⟨x, hx, hmark⟩ := h.other
  obtain ⟨before, after, rfl⟩ := List.append_of_mem hx
  have hbefore : replaceAll mark new (s ++ before) = replaceAll mark new s ++ before := by
    refine replaceAll_append_of_no_end hne fun v hv hvne hend => ?_
    have hv' : v <+: before ++ x :: after := hv.trans (List.prefix_append _ _)
    rcases List.suffix_or_suffix_of_suffix hend (List.suffix_append s v) with hle | hle
    · exact h.absent (hle.isInfix.trans hv'.isInfix)
    · exact h.noEnd v ((List.mem_inits _ _).mpr hv') hvne hle
  have hsuffix : after <:+ before ++ x :: after := (List.suffix_cons x after).trans (List.suffix_append before _)
  have hafter : replaceAll mark new (after ++ t) = after ++ replaceAll mark new t := by
    refine replaceAll_append_of_absent (fun hmark => h.absent (hmark.trans hsuffix.isInfix)) (fun v hv => ?_) t
    exact h.noStart v ((List.mem_tails _ _).mpr (((List.mem_tails _ _).mp hv).trans hsuffix))
  have hsplit : s ++ (before ++ x :: after) ++ t = (s ++ before) ++ x :: (after ++ t) := by simp
  rw [hsplit, replaceAll_append_cons hne hmark, hbefore, hafter]
  simp

theorem replaceAll_self (hne : mark ≠ []) (s : Text) : replaceAll mark mark s = s := by
  induction s using replaceAll_induction hne with
  | nil => exact replaceAll_nil mark mark
  | found s ih => rw [replaceAll_mark_append hne, ih]
  | kept c s hc ih => rw [replaceAll_cons_kept hc, ih]

/-! ### White space -/

section Blank

variable (hne : mark ≠ []) (hmark : ∀ c ∈ mark, isBlank c = true) (hnew : ∀ c ∈ new, isBlank c = true)

include hmark in
theorem notMem_of_isBlank_eq_false (hc : isBlank c = false) : c ∉ mark := by
  intro hmem
  rw [hmark c hmem] at hc
  cases hc

include hne hmark in
theorem stripped_replaceAll (h : Stripped isBlank s) : Stripped isBlank (replaceAll mark new s) := by
  constructor
  · intro c hc
    cases s with
    | nil =>
        rw [replaceAll_nil] at hc
        cases hc
    | cons x s =>
        have hx := h.head x rfl
        rw [← List.nil_append (x :: s), replaceAll_append_cons hne (notMem_of_isBlank_eq_false hmark hx), replaceAll_nil,
          List.nil_append] at hc
        cases hc
        exact hx
  · intro c hc
    rcases List.eq_nil_or_concat' s with rfl | ⟨s, x, rfl⟩
    · rw [replaceAll_nil] at hc
      cases hc
    · have hx := h.last x List.getLast?_concat
      rw [replaceAll_append_cons hne (notMem_of_isBlank_eq_false hmark hx), replaceAll_nil, List.getLast?_concat] at hc
      cases hc
      exact hx

include hne hmark hnew in
/-- White space may be trimmed before or after white space is replaced by white space. -/
theorem trim_replaceAll (s : Text) : trim (replaceAll mark new s) = replaceAll mark new (trim s) := by
  have hblank : ∀ t : Text, (∀ c ∈ t, isBlank c = true) → ∀ c ∈ replaceAll mark new t, isBlank c = true :=
    fun t ht c hc => (mem_of_mem_replaceAll hne hc).elim (hnew c) (ht c)
  by_cases hs : trim s = []
  · rw [hs, replaceAll_nil]
    exact strip_eq_nil_iff.mpr (hblank s (strip_eq_nil_iff.mp hs))
  · have hcore := stripped_trim s
    set front := s.takeWhile isBlank
    set back := (s.dropWhile isBlank).rtakeWhile isBlank
    have hsplit : s = front ++ (trim s ++ back) := by
      rw [trim, strip, dropEndWhile_eq_rdropWhile, List.rdropWhile_append_rtakeWhile,
        List.takeWhile_append_dropWhile]
    have hhead : ∀ x ∈ (trim s ++ back).head?, x ∉ mark := by
      intro x hx
      rw [Option.mem_def, List.head?_append_of_ne_nil _ hs] at hx
      exact notMem_of_isBlank_eq_false hmark (hcore.head x hx)
    have hparts : replaceAll mark new s =
        replaceAll mark new front ++ (replaceAll mark new (trim s) ++ replaceAll mark new back) := by
      conv_lhs => rw [hsplit]
      rw [replaceAll_append_of_head hne hhead,
        replaceAll_append_of_last hne fun x hx => notMem_of_isBlank_eq_false hmark (hcore.last x hx)]
    rw [hparts, trim, strip_forall_append (hblank front fun c hc => List.mem_takeWhile_imp hc),
      strip_append_of_forall (hblank back fun c hc => List.mem_rtakeWhile_imp hc)]
    exact (stripped_replaceAll hne hmark hcore).strip_eq

end Blank

end Text

end ApiPages
