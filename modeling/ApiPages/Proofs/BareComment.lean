import ApiPages.Proofs.Decoration
import ApiPages.Proofs.OwnTags

/-! # Comments without content

A comment of nothing but stars and white space says nothing: its rows are blank once the stars are removed
(`Bare.isBlank_dropMarker`), and a comment without words is the empty one (`read_of_words_eq_nil`).  The opening
delimiter may take its second star from the first row.  If there is no row at all it takes the star of the closing
delimiter instead, and the slash that is left over is read as the description. -/

namespace ApiPages

namespace Comment

variable {row : Text}

/-! ### Rows of stars -/

/-- The row has some stars between some white space, and both may be missing. -/
def Bare (row : Text) : Prop :=
  ∃ before stars after, (∀ c ∈ before, Text.isBlank c = true) ∧ (∀ c ∈ after, Text.isBlank c = true) ∧
    row = before ++ List.replicate stars '*' ++ after

theorem Bare.tail (h : Bare ('*' :: row)) : Bare row := by
  have hstar : ¬ Text.isBlank '*' = true := by decide
  obtain ⟨before, stars, after, hbefore, hafter, heq⟩ := h
  cases before with
  | nil =>
      cases stars with
      | zero =>
          have hfirst : '*' ∈ after := by
            rw [← show '*' :: row = after from heq]
            exact List.mem_cons_self
          exact absurd (hafter '*' hfirst) hstar
      | succ n =>
          rw [List.replicate_succ] at heq
          exact ⟨[], n, after, hbefore, hafter, (List.cons.inj heq).2⟩
  | cons c before =>
      rw [← (List.cons.inj heq).1] at hbefore
      exact absurd (hbefore '*' List.mem_cons_self) hstar

theorem Bare.isBlank_dropMarker (h : Bare row) : ∀ c ∈ dropMarker row, Text.isBlank c = true := by
  obtain ⟨before, stars, after, hbefore, hafter, rfl⟩ := h
  cases stars with
  | zero =>
      have hblank : ∀ c ∈ before ++ after, Text.isBlank c = true := List.forall_mem_append.mpr ⟨hbefore, hafter⟩
      rw [List.replicate_zero, List.append_nil, dropMarker_of_blank hblank]
      exact hblank
  | succ n =>
      have hrow : (before ++ List.replicate (n + 1) '*' ++ after).dropWhile Text.isBlank =
          '*' :: (List.replicate n '*' ++ after) := by
        rw [List.append_assoc, List.dropWhile_append_of_pos hbefore]
        rfl
      have hstars : (List.replicate n '*' ++ after).dropWhile (· == '*') = after := by
        rw [List.dropWhile_append_of_pos (by simp)]
        refine Text.dropWhile_eq_self fun c hc => beq_eq_false_iff_ne.mpr ?_
        rintro rfl
        exact absurd (hafter '*' (List.mem_of_mem_head? hc)) (by decide)
      simp only [dropMarker, hrow, hstars]
      split
      · split
        · exact (List.forall_mem_cons.mp hafter).2
        · exact hafter
      · exact List.forall_mem_nil _

theorem bare_of_lines_cons {s : Text} (h : ∀ row ∈ Text.lines ('*' :: s), Bare row) :
    ∀ row ∈ Text.lines s, Bare row := by
  by_cases hfeed : '\n' ∈ s
  · obtain ⟨first, rest, rfl, hfirst⟩ := List.eq_append_cons_of_mem hfeed
    have hstar : '\n' ∉ '*' :: first := by simp [hfirst]
    rw [← List.cons_append, Text.lines_append_cons hstar, Text.dropReturn_cons (by decide)] at h
    obtain ⟨hrow, hrest⟩ := List.forall_mem_cons.mp h
    rw [Text.lines_append_cons hfirst]
    exact List.forall_mem_cons.mpr ⟨hrow.tail, hrest⟩
  · have hstar : '\n' ∉ '*' :: s := by simp [hfeed]
    have hrow : Bare ('*' :: s) := by simpa [Text.lines_of_notMem hstar] using h
    rw [Text.lines_of_notMem hfeed]
    split
    · exact List.forall_mem_nil _
    · exact List.forall_mem_singleton.mpr hrow.tail

/-! ### Comments -/

theorem ofSegments_description (ns : Text) (lines : List Text) :
    ofSegments ns false [⟨Segment.descriptionTag, [], lines⟩] =
      { description := dropMarks (textOf [⟨Segment.descriptionTag, [], lines⟩] Segment.descriptionTag [' ']) } := by
  have hother : otherTagNames [⟨Segment.descriptionTag, [], lines⟩] = [] := by
    simp [otherTagNames, knownTags]
  rw [ofSegments, hother]
  rfl

theorem read_of_words_eq_nil {raw : Text} (h : Text.words (clean raw) = []) (ns : Text) : read ns raw = {} := by
  have hrows : (Text.lines (clean raw)).filter Segment.hasWords = [] := by
    rw [← Text.flatMap_words_lines, List.flatMap_eq_nil_iff] at h
    rw [List.filter_eq_nil_iff]
    intro row hrow
    simp [Segment.hasWords_of_words_eq_nil (h row hrow)]
  have hsegments : Segment.ofText (clean raw) = [⟨Segment.descriptionTag, [], []⟩] := by
    rw [Segment.ofText, ← Segment.collect_filter, hrows]
    rfl
  have hmarks : inheritMarks.any (Text.occurs · (clean raw)) = false := by
    rw [List.any_eq_false]
    intro mark hmark
    rw [occurs_mark_iff_exists_word hmark, h]
    simp
  have hdescription :
      dropMarks (textOf [⟨Segment.descriptionTag, [], []⟩] Segment.descriptionTag [' ']) = [] := by decide +kernel
  simp only [read, hsegments, hmarks, ofSegments_description, hdescription]

/-! ### Delimiters -/

/-- The delimiters with nothing between them leave a slash. -/
theorem read_empty_body (ns : Text) : read ns "/**/" = { description := "/" } := by
  have hclean : clean "/**/" = "/".toList := by decide
  have hsegments : Segment.ofText "/" = [⟨Segment.descriptionTag, [], ["/"]⟩] := by decide
  have hmarks : inheritMarks.any (Text.occurs · "/".toList) = false := by decide
  have hdescription : dropMarks (textOf [⟨Segment.descriptionTag, [], ["/"]⟩] Segment.descriptionTag [' ']) =
      "/".toList := by decide +kernel
  simp only [read, hclean, hmarks, hsegments, ofSegments_description, hdescription]

theorem trim_delimited (body : Text) :
    Text.trim ("/*".toList ++ body ++ "*/".toList) = "/*".toList ++ body ++ "*/".toList := by
  refine Text.Stripped.strip_eq ⟨?_, ?_⟩
  · intro c hc
    cases hc
    decide
  · intro c hc
    rw [Option.mem_def, List.getLast?_append_of_ne_nil _ (by decide)] at hc
    cases hc
    decide

/-- What is between the delimiters, if there is anything: the body, or what follows its first star. -/
theorem dropClosing_dropOpening_delimited {body : Text} (h : body ≠ []) :
    ∃ inner, dropClosing (dropOpening (Text.trim ("/*".toList ++ body ++ "*/".toList))) = inner ∧
      (body = inner ∨ body = '*' :: inner) := by
  rw [trim_delimited]
  obtain ⟨c, body, rfl⟩ := List.exists_cons_of_ne_nil h
  by_cases hc : c = '*'
  · subst hc
    exact ⟨body, dropClosing_append body, .inr rfl⟩
  · have hopening : dropOpening ("/*".toList ++ c :: body ++ "*/".toList) = c :: body ++ ['*', '/'] := by
      simp [dropOpening, hc]
    rw [hopening]
    exact ⟨c :: body, dropClosing_append (c :: body), .inl rfl⟩

/-- **A comment without content says nothing, unless it has no body at all.**  If every row between the delimiters has
only stars between white space, then the comment is empty.  Only the two delimiters with nothing between them have a
slash as their description. -/
theorem read_bare {body : Text} (h : ∀ row ∈ Text.lines body, Bare row) (ns : Text) :
    read ns ("/*".toList ++ body ++ "*/".toList) = if body = [] then { description := "/" } else {} := by
  split
  · rename_i hnil
    subst hnil
    exact read_empty_body ns
  · rename_i hne
    obtain ⟨inner, hinner, hbody⟩ := dropClosing_dropOpening_delimited hne
    have hrows : ∀ row ∈ Text.lines inner, Bare row := by
      rcases hbody with rfl | rfl
      · exact h
      · exact bare_of_lines_cons h
    refine read_of_words_eq_nil ?_ ns
    rw [clean, hinner, Text.words_join_feed, List.flatMap_eq_nil_iff]
    intro cleaned hcleaned
    obtain ⟨row, hrow, rfl⟩ := List.mem_map.mp hcleaned
    exact Text.words_eq_nil (hrows row hrow).isBlank_dropMarker

/-- Rows of several kinds: stars and nothing else, white space alone, and both. -/
def starry : Text :=
  "**\n\n\t \r\n *** \n  *\t"

theorem lines_starry : Text.lines starry = ["**", "", "\t ", " *** ", "  *\t"] := by
  decide

theorem starry_read_bare :
    (∀ row ∈ Text.lines starry, Bare row) ∧ read [] ("/*".toList ++ starry ++ "*/".toList) = {} := by
  have hrows : ∀ row ∈ Text.lines starry, Bare row := by
    rw [lines_starry]
    have hblank : ∀ s ∈ (["", "\t ", " ", "  ", "\t"] : List Text), ∀ c ∈ s, Text.isBlank c = true := by
      simp [Text.isBlank]
    refine List.forall_mem_cons.mpr ⟨⟨"", 2, "", hblank _ (by decide), hblank _ (by decide), by decide⟩, ?_⟩
    refine List.forall_mem_cons.mpr ⟨⟨"", 0, "", hblank _ (by decide), hblank _ (by decide), by decide⟩, ?_⟩
    refine List.forall_mem_cons.mpr ⟨⟨"\t ", 0, "", hblank _ (by decide), hblank _ (by decide), by decide⟩, ?_⟩
    refine List.forall_mem_cons.mpr ⟨⟨" ", 3, " ", hblank _ (by decide), hblank _ (by decide), by decide⟩, ?_⟩
    exact List.forall_mem_singleton.mpr ⟨"  ", 1, "\t", hblank _ (by decide), hblank _ (by decide), by decide⟩
  exact ⟨hrows, read_bare hrows []⟩

/-- No row is not bare, and yet the slash of the closing delimiter becomes the description. -/
theorem slash_described : (∀ row ∈ Text.lines [], Bare row) ∧
    read [] ("/*".toList ++ [] ++ "*/".toList) ≠ {} ∧
    (read [] ("/*".toList ++ [] ++ "*/".toList)).description = "/".toList := by
  refine ⟨List.forall_mem_nil _, ?_, ?_⟩
  · decide +kernel
  · decide +kernel

end Comment

end ApiPages
