import ApiPages.ClassName
import ApiPages.Proofs.Text

/-! # The two forms of a class name

Neither form of a name has a backslash or white space at an end, the leading backslash of the display form
apart.  A name and its display form have the same key.

A name is a qualifier, its last segment and trailing backslashes (`exists_short_eq`). -/

namespace ApiPages

namespace ClassName

theorem strip_display (name : Text) :
    Text.strip isOuter (display name) = Text.strip isOuter name := by
  rw [display, Text.strip_cons_of_pos (by decide), Text.strip_strip]

theorem display_display (name : Text) : display (display name) = display name := by
  rw [display, strip_display, ← display]

/-- A name and its display form are looked up alike. -/
theorem key_display (name : Text) : key (display name) = key name := by
  rw [key, strip_display, ← key]

theorem lower_display (name : Text) : Text.lower (display name) = '\\' :: key name :=
  rfl

theorem isBlank_eq_false_of_isOuter {c : Char} (h : isOuter c = false) : Text.isBlank c = false :=
  (Bool.or_eq_false_iff.mp h).2

theorem ne_backslash_of_isOuter {c : Char} (h : isOuter c = false) : c ≠ '\\' := by
  rintro rfl
  cases h

theorem isBackslash_toLower (c : Char) : isBackslash c.toLower = isBackslash c := by
  rw [isBackslash, isBackslash, Bool.eq_iff_iff, beq_iff_eq, beq_iff_eq]
  exact Text.toLower_eq_iff (by decide)

/-- The display form has no white space around it. -/
theorem stripped_display (name : Text) : Text.Stripped Text.isBlank (display name) where
  head c hc := by
    cases hc
    decide
  last c hc := by
    cases hs : Text.strip isOuter name with
    | nil =>
        rw [display, hs] at hc
        cases hc
        decide
    | cons x rest =>
        have hlast := (Text.stripped_strip isOuter name).last c
        rw [hs] at hlast
        rw [display, hs, Option.mem_def, List.getLast?_cons_cons] at hc
        exact isBlank_eq_false_of_isOuter (hlast hc)

theorem display_of_stripped {p : Text} (h : Text.Stripped isOuter p) : display ('\\' :: p) = '\\' :: p := by
  rw [display, Text.strip_cons_of_pos (by decide), h.strip_eq]

/-- What follows a name without backslashes and white space is shown after it. -/
theorem display_append {name s : Text} (hname : ∃ x ∈ name.getLast?, isOuter x = false)
    (hs : ∀ x ∈ s, isOuter x = false) : display (name ++ s) = display name ++ s := by
  obtain ⟨x, hx, hxo⟩ := hname
  have hlast : ∀ y ∈ name.getLast?, isOuter y = false := fun y hy => Option.mem_unique hx hy ▸ hxo
  have hlast' : ∀ y ∈ (name ++ s).getLast?, isOuter y = false := by
    intro y hy
    rw [Option.mem_def, List.getLast?_append, Option.or_eq_some_iff] at hy
    rcases hy with hy | ⟨_, hy⟩
    · exact hs y (List.mem_of_getLast? hy)
    · exact hlast y hy
  have hne : name.dropWhile isOuter ≠ [] := by
    rw [ne_eq, List.dropWhile_eq_nil_iff]
    intro hall
    rw [hall x (List.mem_of_getLast? hx)] at hxo
    cases hxo
  rw [display, display, Text.strip_eq_dropWhile hlast', Text.strip_eq_dropWhile hlast, List.dropWhile_append,
    if_neg (by simpa using hne), List.cons_append]

/-! ### The last segment of a name -/

variable {q s segment : Text}

/-- What can stand before the last segment of a name: nothing, or a text that ends with a backslash. -/
def IsQualifier (q : Text) : Prop :=
  q = [] ∨ ∃ before, q = before ++ ['\\']

theorem exists_qualifier (s : Text) : ∃ q segment, s = q ++ segment ∧ IsQualifier q ∧ '\\' ∉ segment := by
  rcases Text.exists_last_piece isBackslash s with hs | ⟨before, mark, segment, rfl, hmark, hsegment⟩
  · refine ⟨[], s, rfl, .inl rfl, fun hc => ?_⟩
    cases hs _ hc
  · obtain rfl : mark = '\\' := by simpa [isBackslash] using hmark
    refine ⟨before ++ ['\\'], segment, by simp, .inr ⟨before, rfl⟩, fun hc => ?_⟩
    cases hsegment _ hc

theorem IsQualifier.getLastD_splitOn (hq : IsQualifier q) (h : '\\' ∉ segment) :
    ((q ++ segment).splitOn '\\').getLastD [] = segment := by
  rcases hq with rfl | ⟨before, rfl⟩
  · rw [List.nil_append, List.splitOn_eq_singleton h]
    rfl
  · rw [List.append_assoc, List.singleton_append, List.splitOn_append_cons_self, List.splitOn_eq_singleton h]
    simp

theorem short_trim (s : Text) : short (Text.trim s) = short s := by
  rw [short, Text.trim_trim, ← short]

/-- Trailing backslashes do not belong to the last segment. -/
theorem short_append_backslashes {bs : Text} (hbs : ∀ c ∈ bs, c = '\\')
    (hs : ∀ c ∈ s.getLast?, Text.isBlank c = false) : short (s ++ bs) = short s := by
  have hall : ∀ c ∈ bs, isBackslash c = true := fun c hc => by simp [isBackslash, hbs c hc]
  have hlast : ∀ c ∈ (s ++ bs).getLast?, Text.isBlank c = false := by
    intro c hc
    rw [Option.mem_def, List.getLast?_append, Option.or_eq_some_iff] at hc
    rcases hc with hc | ⟨_, hc⟩
    · rw [hbs c (List.mem_of_getLast? hc)]
      decide
    · exact hs c hc
  have hfront : Text.dropEndWhile isBackslash ((s ++ bs).dropWhile Text.isBlank) =
      Text.dropEndWhile isBackslash (s.dropWhile Text.isBlank) := by
    by_cases hd : s.dropWhile Text.isBlank = []
    · have hkept : bs.dropWhile Text.isBlank = bs := by
        refine Text.dropWhile_eq_self fun c hc => ?_
        rw [hbs c (List.mem_of_mem_head? hc)]
        decide
      rw [List.dropWhile_append, hd, List.isEmpty_nil, if_pos rfl, hkept]
      exact Text.dropEndWhile_append_of_forall hall []
    · rw [List.dropWhile_append, if_neg (by simpa using hd), Text.dropEndWhile_append_of_forall hall]
  rw [short, short, Text.trim, Text.trim, Text.strip_eq_dropWhile hlast, Text.strip_eq_dropWhile hs, hfront]

/-- The last segment does not depend on what stands before it. -/
theorem IsQualifier.short_append (hq : IsQualifier q) (h : '\\' ∉ segment)
    (hsome : ∃ c ∈ segment, Text.isBlank c = false)
    (hstart : q = [] → ∀ c ∈ segment.head?, Text.isBlank c = false) :
    short (q ++ segment) = Text.dropEndWhile Text.isBlank segment := by
  have hfront : ∃ q', IsQualifier q' ∧ (q ++ segment).dropWhile Text.isBlank = q' ++ segment := by
    rcases hq with rfl | ⟨before, rfl⟩
    · exact ⟨[], .inl rfl, Text.dropWhile_eq_self (hstart rfl)⟩
    · -- the backslash is not blank, so the white space in front ends before it
      refine ⟨before.dropWhile Text.isBlank ++ ['\\'], .inr ⟨_, rfl⟩, ?_⟩
      rw [List.append_assoc, List.append_assoc, List.dropWhile_append]
      split
      · rename_i hd
        rw [List.isEmpty_iff.mp hd]
        rfl
      · rfl
  obtain ⟨q', hq', hfront⟩ := hfront
  have hmem : '\\' ∉ Text.dropEndWhile Text.isBlank segment := fun hc => h (Text.mem_of_mem_dropEndWhile hc)
  have hkept : Text.dropEndWhile isBackslash (q' ++ Text.dropEndWhile Text.isBlank segment) =
      q' ++ Text.dropEndWhile Text.isBlank segment := by
    refine Text.dropEndWhile_eq_self fun c hc => ?_
    rw [Option.mem_def, List.getLast?_append_of_ne_nil _ (Text.dropEndWhile_ne_nil hsome)] at hc
    rw [isBackslash, beq_eq_false_iff_ne]
    rintro rfl
    exact hmem (List.mem_of_getLast? hc)
  rw [short, Text.trim, Text.strip, hfront, Text.dropEndWhile_append_of_exists hsome, hkept,
    hq'.getLastD_splitOn hmem]

theorem IsQualifier.short_eq (hq : IsQualifier q) (h : '\\' ∉ segment)
    (hsome : ∃ c ∈ segment, Text.isBlank c = false) (hs : Text.trim s = q ++ segment) : short s = segment := by
  have hstripped : Text.Stripped Text.isBlank (q ++ segment) := hs ▸ Text.stripped_trim s
  have hstart : q = [] → ∀ c ∈ segment.head?, Text.isBlank c = false := by
    rintro rfl
    exact hstripped.head
  have hend : ∀ c ∈ segment.getLast?, Text.isBlank c = false := by
    obtain ⟨x, hx, _⟩ := hsome
    intro c hc
    refine hstripped.last c ?_
    rwa [Option.mem_def, List.getLast?_append_of_ne_nil _ (List.ne_nil_of_mem hx)]
  rw [← short_trim, hs, hq.short_append h hsome hstart, Text.dropEndWhile_eq_self hend]

/-- Every name is made of a qualifier, its last segment and trailing backslashes. -/
theorem exists_short_eq (hs : Text.trim s = s) :
    ∃ q bs, s = q ++ short s ++ bs ∧ IsQualifier q ∧ ∀ c ∈ bs, c = '\\' := by
  obtain ⟨q, segment, heq, hq, hsegment⟩ := exists_qualifier (Text.dropEndWhile isBackslash s)
  have hshort : short s = segment := by
    rw [short, hs, heq, hq.getLastD_splitOn hsegment]
  refine ⟨q, s.rtakeWhile isBackslash, ?_, hq, fun c hc => ?_⟩
  · rw [hshort, ← heq, Text.dropEndWhile_eq_rdropWhile, List.rdropWhile_append_rtakeWhile]
  · simpa [isBackslash] using List.mem_rtakeWhile_imp hc

theorem mem_of_mem_short {c : Char} (h : c ∈ short s) : c ∈ s := by
  obtain ⟨q, bs, heq, _⟩ := exists_short_eq (Text.trim_trim s)
  rw [short_trim] at heq
  refine Text.mem_of_mem_strip (?_ : c ∈ Text.trim s)
  rw [heq]
  simp [h]

end ClassName

end ApiPages
