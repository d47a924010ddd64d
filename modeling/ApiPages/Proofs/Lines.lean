import ApiPages.Proofs.Text

/-! # Words and lines

A blank parts the words before it from the words after it (`words_append_cons`), and all that is said about words
follows from this: neither trimming a text nor cutting it into lines changes its words (`words_trim`,
`flatMap_words_lines`).  A line ends with a line feed or with a carriage return and a line feed; either way it is
read back as it was, if neither character is in it (`lines_append_ending`).  A mark without a line feed occurs in
joined lines if it occurs in one of them (`occurs_join_feed`), and a mark without white space occurs in a text if it
occurs in one of its words (`occurs_iff_exists_word`). -/

namespace ApiPages

namespace Text

variable {s t : Text} {c : Char}

/-! ### Words -/

theorem words_nil : words [] = [] := rfl

theorem isBlank_of_mem_words (h : t ∈ words s) : ∀ c ∈ t, isBlank c = false :=
  notMem_of_mem_splitOnP (List.mem_filter.mp h).1

theorem words_append_cons (hc : isBlank c = true) (s t : Text) :
    words (s ++ c :: t) = words s ++ words t := by
  simp only [words, List.splitOnP_append_cons s t hc, List.filter_append]

theorem words_cons (hc : isBlank c = true) (s : Text) : words (c :: s) = words s := by
  have h := words_append_cons hc [] s
  rwa [words_nil, List.nil_append, List.nil_append] at h

theorem words_concat (hc : isBlank c = true) (s : Text) : words (s ++ [c]) = words s := by
  rw [words_append_cons hc, words_nil, List.append_nil]

theorem words_dropWhile (s : Text) : words (s.dropWhile isBlank) = words s :=
  apply_dropWhile (fun _ => words_cons) s

theorem words_dropEndWhile (s : Text) : words (dropEndWhile isBlank s) = words s :=
  apply_dropEndWhile (fun _ => words_concat) s

/-- Trimming a text keeps its words. -/
theorem words_trim (s : Text) : words (trim s) = words s :=
  apply_strip (fun _ => words_cons) (fun _ => words_concat) s

theorem words_eq_nil (h : ∀ c ∈ s, isBlank c = true) : words s = [] := by
  have hd : s.dropWhile isBlank = [] := List.dropWhile_eq_nil_iff.mpr h
  rw [← words_dropWhile, hd, words_nil]

theorem words_eq_singleton (h : ∀ c ∈ s, isBlank c = false) (hne : s ≠ []) : words s = [s] := by
  rw [words, List.splitOnP_eq_singleton h]
  simpa using hne

theorem words_blank_append {blanks : Text} (h : ∀ c ∈ blanks, isBlank c = true) (s : Text) :
    words (blanks ++ s) = words s := by
  rw [← words_dropWhile (blanks ++ s), List.dropWhile_append_of_pos h, words_dropWhile]

theorem words_append_blank {blanks : Text} (h : ∀ c ∈ blanks, isBlank c = true) (s : Text) :
    words (s ++ blanks) = words s := by
  rw [← words_dropEndWhile (s ++ blanks), dropEndWhile_append_of_forall h, words_dropEndWhile]

/-- White space parts the words before it from the words after it. -/
theorem words_append_blank_append {blanks : Text} (h : ∀ c ∈ blanks, isBlank c = true) (hne : blanks ≠ [])
    (s t : Text) : words (s ++ blanks ++ t) = words s ++ words t := by
  obtain ⟨c, rest, rfl⟩ := List.exists_cons_of_ne_nil hne
  obtain ⟨hc, hrest⟩ := List.forall_mem_cons.mp h
  rw [List.append_assoc, List.cons_append, words_append_cons hc, words_blank_append hrest]

/-- A text that begins without white space begins with its first word, or with a part of it. -/
theorem exists_words_append (h : ∀ c ∈ s, isBlank c = false) (hne : s ≠ []) (t : Text) :
    ∃ more rest, words (s ++ t) = (s ++ more) :: rest := by
  have hmore : ∀ c ∈ s ++ t.takeWhile (!isBlank ·), isBlank c = false := by
    intro c hc
    rcases List.mem_append.mp hc with hc | hc
    · exact h c hc
    · simpa using List.mem_takeWhile_imp hc
  have hne' : s ++ t.takeWhile (!isBlank ·) ≠ [] := by simp [hne]
  refine ⟨t.takeWhile (!isBlank ·), words (t.dropWhile (!isBlank ·)), ?_⟩
  have hsplit : s ++ t = (s ++ t.takeWhile (!isBlank ·)) ++ t.dropWhile (!isBlank ·) := by
    rw [List.append_assoc, List.takeWhile_append_dropWhile]
  rw [hsplit]
  cases hrest : t.dropWhile (!isBlank ·) with
  | nil => rw [List.append_nil, words_eq_singleton hmore hne', words_nil]
  | cons c rest =>
      have hc : isBlank c = true := by
        have := List.head?_dropWhile_not (!isBlank ·) t
        rw [hrest] at this
        simpa using this
      rw [words_append_cons hc, words_eq_singleton hmore hne', words_cons hc, List.singleton_append]

theorem words_join_feed (rows : List Text) : words (join ['\n'] rows) = rows.flatMap words := by
  induction rows with
  | nil => rfl
  | cons row rows ih =>
      cases rows with
      | nil => simp [join]
      | cons row' rows =>
          rw [join_cons_cons, List.append_assoc, List.singleton_append, words_append_cons (by decide), ih]
          rfl

/-! ### Prefixes and suffixes -/

theorem dropPrefix?_append (lead s : Text) : dropPrefix? lead (lead ++ s) = some s := by
  induction lead with
  | nil => rfl
  | cons p lead ih => rw [List.cons_append, dropPrefix?, if_pos rfl, ih]

theorem dropSuffix?_append (s tail : Text) : dropSuffix? tail (s ++ tail) = some s := by
  unfold dropSuffix?
  rw [List.reverse_append, dropPrefix?_append, Option.map_some, List.reverse_reverse]

theorem eq_append_of_dropPrefix? {lead s rest : Text} (h : dropPrefix? lead s = some rest) : s = lead ++ rest := by
  induction lead generalizing s with
  | nil => exact Option.some.inj h
  | cons p lead ih =>
      cases s with
      | nil => cases h
      | cons c s =>
          rw [dropPrefix?] at h
          split at h
          · rename_i hp
            rw [ih h, hp, List.cons_append]
          · cases h

theorem eq_append_of_dropSuffix? {tail s rest : Text} (h : dropSuffix? tail s = some rest) : s = rest ++ tail := by
  obtain ⟨front, hfront, rfl⟩ := Option.map_eq_some_iff.mp h
  rw [← List.reverse_inj, eq_append_of_dropPrefix? hfront]
  simp

theorem dropReturn_concat (s : Text) : dropReturn (s ++ ['\r']) = s := by
  unfold dropReturn
  rw [dropSuffix?_append, Option.getD_some]

theorem dropReturn_concat_of_ne (hc : c ≠ '\r') (s : Text) : dropReturn (s ++ [c]) = s ++ [c] := by
  have h : dropSuffix? ['\r'] (s ++ [c]) = none := by
    simp [dropSuffix?, dropPrefix?, hc.symm]
  unfold dropReturn
  rw [h, Option.getD_none]

theorem dropReturn_cons (hc : c ≠ '\r') (s : Text) : dropReturn (c :: s) = c :: dropReturn s := by
  rcases List.eq_nil_or_concat' s with rfl | ⟨t, d, rfl⟩
  · exact dropReturn_concat_of_ne hc []
  · by_cases hd : d = '\r'
    · rw [hd, ← List.cons_append, dropReturn_concat, dropReturn_concat]
    · rw [← List.cons_append, dropReturn_concat_of_ne hd, dropReturn_concat_of_ne hd, List.cons_append]

theorem dropReturn_eq_self (h : '\r' ∉ s) : dropReturn s = s := by
  rcases List.eq_nil_or_concat' s with rfl | ⟨t, c, rfl⟩
  · rfl
  · refine dropReturn_concat_of_ne ?_ t
    rintro rfl
    exact h (List.mem_append_right t (List.mem_singleton_self _))

theorem mem_of_mem_dropReturn {x : Char} (h : x ∈ dropReturn s) : x ∈ s := by
  rcases List.eq_nil_or_concat' s with rfl | ⟨t, c, rfl⟩
  · exact h
  · by_cases hc : c = '\r'
    · subst hc
      rw [dropReturn_concat] at h
      exact List.mem_append_left _ h
    · rwa [dropReturn_concat_of_ne hc] at h

theorem words_dropReturn (s : Text) : words (dropReturn s) = words s := by
  rcases List.eq_nil_or_concat' s with rfl | ⟨t, c, rfl⟩
  · rfl
  · by_cases hc : c = '\r'
    · subst hc
      rw [dropReturn_concat, words_concat (by decide)]
    · rw [dropReturn_concat_of_ne hc]

/-! ### Lines -/

theorem lines_append_cons (h : '\n' ∉ s) (t : Text) : lines (s ++ '\n' :: t) = dropReturn s :: lines t := by
  obtain ⟨row, rows, ht⟩ := List.exists_cons_of_ne_nil (List.splitOn_ne_nil '\n' t)
  unfold lines
  rw [List.splitOn_append_cons_self_of_not_mem h, ht]
  rfl

theorem lines_of_notMem (h : '\n' ∉ s) : lines s = if s.isEmpty then [] else [s] := by
  unfold lines
  rw [List.splitOn_eq_singleton h]
  cases s <;> rfl

/-- The words of a text are those of its lines. -/
theorem flatMap_words_lines (s : Text) : (lines s).flatMap words = words s := by
  obtain ⟨rows, last, hrows⟩ := List.eq_nil_or_concat' (s.splitOn '\n') |>.resolve_left
    (List.splitOn_ne_nil '\n' s)
  have hs : words s = rows.flatMap words ++ words last := by
    have hjoin : join ['\n'] (s.splitOn '\n') = s := List.intercalate_splitOn '\n'
    rw [← hjoin, words_join_feed, hrows]
    simp
  have hlast : ([last].filter fun r => !r.isEmpty).flatMap words = words last := by
    cases last with
    | nil => rfl
    | cons c last => simp
  have hreturn : (rows.map dropReturn).flatMap words = rows.flatMap words := by
    rw [List.flatMap_map]
    exact List.flatMap_congr fun row _ => words_dropReturn row
  simp only [lines, hrows, List.dropLast_concat, List.getLast?_concat, Option.toList_some,
    List.flatMap_append]
  rw [hreturn, hlast, hs]

theorem notMem_of_mem_splitOn (h : t ∈ s.splitOn c) : c ∉ t := by
  intro hc
  rw [List.splitOn_eq_splitOnP] at h
  simpa using notMem_of_mem_splitOnP h _ hc

theorem feed_notMem_of_mem_lines (h : t ∈ lines s) : '\n' ∉ t := by
  rcases List.mem_append.mp h with h | h
  · obtain ⟨row, hrow, rfl⟩ := List.mem_map.mp h
    have hfeed := notMem_of_mem_splitOn (List.dropLast_subset _ hrow)
    exact fun hc => hfeed (mem_of_mem_dropReturn hc)
  · have hrow := Option.mem_toList.mp (List.mem_of_mem_filter h)
    exact notMem_of_mem_splitOn (List.mem_of_getLast? hrow)

/-- A text without line feeds and carriage returns. -/
structure OneLine (s : Text) : Prop where
  noFeed : '\n' ∉ s
  noReturn : '\r' ∉ s

instance : DecidablePred OneLine :=
  fun s => decidable_of_iff ('\n' ∉ s ∧ '\r' ∉ s)
    ⟨fun ⟨hfeed, hreturn⟩ => ⟨hfeed, hreturn⟩, fun h => ⟨h.noFeed, h.noReturn⟩⟩

theorem OneLine.of_subset (h : OneLine s) (hsub : ∀ x ∈ t, x ∈ s) : OneLine t :=
  ⟨fun hc => h.noFeed (hsub _ hc), fun hc => h.noReturn (hsub _ hc)⟩

theorem oneLine_append_iff : OneLine (s ++ t) ↔ OneLine s ∧ OneLine t := by
  constructor
  · intro h
    exact ⟨h.of_subset fun _ => List.mem_append_left t, h.of_subset fun _ => List.mem_append_right s⟩
  · rintro ⟨hs, ht⟩
    constructor <;> rw [List.mem_append, not_or]
    · exact ⟨hs.noFeed, ht.noFeed⟩
    · exact ⟨hs.noReturn, ht.noReturn⟩

theorem OneLine.append (hs : OneLine s) (ht : OneLine t) : OneLine (s ++ t) :=
  oneLine_append_iff.mpr ⟨hs, ht⟩

theorem OneLine.cons (h : OneLine s) (hc : OneLine [c]) : OneLine (c :: s) :=
  hc.append h

theorem OneLine.strip {p : Char → Bool} (h : OneLine s) : OneLine (strip p s) :=
  h.of_subset fun _ => mem_of_mem_strip

theorem oneLine_join {sep : Text} {pieces : List Text} (hsep : OneLine sep) (h : ∀ p ∈ pieces, OneLine p) :
    OneLine (join sep pieces) := by
  constructor
  · intro hc
    rcases mem_of_mem_join hc with hc | ⟨piece, hp, hc⟩
    · exact hsep.noFeed hc
    · exact (h piece hp).noFeed hc
  · intro hc
    rcases mem_of_mem_join hc with hc | ⟨piece, hp, hc⟩
    · exact hsep.noReturn hc
    · exact (h piece hp).noReturn hc

theorem oneLine_unwords {ws : List Text} (h : ∀ w ∈ ws, OneLine w) : OneLine (unwords ws) :=
  oneLine_join (by decide) h

theorem oneLine_of_mem_words (h : t ∈ words s) : OneLine t := by
  have hblank := isBlank_of_mem_words h
  constructor <;> intro hc <;> cases hblank _ hc

/-- The ways to end a line. -/
inductive Ending where
  | feed
  | returnFeed
deriving DecidableEq, Repr

def Ending.text : Ending → Text
  | .feed => ['\n']
  | .returnFeed => ['\r', '\n']

theorem lines_append_ending (e : Ending) (h : OneLine s) (t : Text) :
    lines (s ++ e.text ++ t) = s :: lines t := by
  cases e with
  | feed =>
      have hcut := lines_append_cons h.noFeed t
      rw [dropReturn_eq_self h.noReturn] at hcut
      rwa [Ending.text, List.append_assoc, List.singleton_append]
  | returnFeed =>
      have hfeed : '\n' ∉ s ++ ['\r'] := by simp [h.noFeed]
      have hcut := lines_append_cons hfeed t
      rw [dropReturn_concat] at hcut
      rwa [Ending.text, show s ++ ['\r', '\n'] ++ t = s ++ ['\r'] ++ '\n' :: t by simp]

/-- Joined lines are read back as they were.  Only an empty line at the end is no line any more, which does not
matter if empty lines are left out. -/
theorem filter_lines_join {rows : List Text} (h : ∀ row ∈ rows, OneLine row) {p : Text → Bool}
    (hp : p [] = false) : (lines (join ['\n'] rows)).filter p = rows.filter p := by
  induction rows with
  | nil => rfl
  | cons row rows ih =>
      obtain ⟨hrow, hrows⟩ := List.forall_mem_cons.mp h
      cases rows with
      | nil =>
          rw [join, List.intercalate_singleton, lines_of_notMem hrow.noFeed]
          cases row with
          | nil => simp [hp]
          | cons c row => rfl
      | cons row' rows =>
          have hcut := lines_append_ending .feed hrow (join ['\n'] (row' :: rows))
          rw [Ending.text] at hcut
          rw [join_cons_cons, hcut, List.filter_cons, ih hrows, List.filter_cons (x := row)]

/-! ### Occurrences -/

section Occurrences

variable {mark : Text}

theorem occurs_iff_isInfix : occurs mark s = true ↔ mark <:+: s := by
  induction s with
  | nil => rw [occurs, List.isEmpty_iff, List.infix_nil]
  | cons c s ih => rw [occurs, Bool.or_eq_true, ih, List.isPrefixOf_iff_prefix, List.infix_cons_iff]

theorem mem_of_occurs (h : occurs mark s = true) (hc : c ∈ mark) : c ∈ s :=
  (occurs_iff_isInfix.mp h).subset hc

theorem isPrefixOf_append_cons (h : c ∉ mark) (s t : Text) : mark.isPrefixOf (s ++ c :: t) = mark.isPrefixOf s := by
  induction mark generalizing s with
  | nil => simp
  | cons m mark ih =>
      obtain ⟨hm, hmark⟩ := not_or.mp (mt List.mem_cons.mpr h)
      cases s with
      | nil => simp [List.isPrefixOf, Ne.symm hm]
      | cons d s => simp [List.isPrefixOf, ih hmark]

/-- A mark occurs on one side of a character that is not in it. -/
theorem occurs_append_cons (hne : mark ≠ []) (h : c ∉ mark) (s t : Text) :
    occurs mark (s ++ c :: t) = (occurs mark s || occurs mark t) := by
  have hempty : mark.isEmpty = false := by simpa using hne
  induction s with
  | nil =>
      have hfirst : mark.isPrefixOf (c :: t) = false := by
        cases mark with
        | nil => exact absurd rfl hne
        | cons m mark => exact isPrefixOf_append_cons h [] t
      simp [occurs, hfirst, hempty]
  | cons d s ih =>
      rw [List.cons_append, occurs, ih, ← List.cons_append, isPrefixOf_append_cons h, occurs, Bool.or_assoc]

theorem occurs_join_feed (hne : mark ≠ []) (h : '\n' ∉ mark) (rows : List Text) :
    occurs mark (join ['\n'] rows) = rows.any (occurs mark) := by
  induction rows with
  | nil => simpa [join, occurs] using hne
  | cons row rows ih =>
      cases rows with
      | nil => simp [join]
      | cons row' rows =>
          rw [join_cons_cons, List.append_assoc, List.singleton_append, occurs_append_cons hne h, ih]
          rfl

/-- A mark without white space occurs in a text if it occurs in one of the words. -/
theorem occurs_iff_exists_word (hne : mark ≠ []) (h : ∀ c ∈ mark, isBlank c = false) (s : Text) :
    occurs mark s = true ↔ ∃ word ∈ words s, occurs mark word = true := by
  have hpiece : ∀ piece : Text, (∀ c ∈ piece, isBlank c = false) →
      (occurs mark piece = true ↔ ∃ word ∈ words piece, occurs mark word = true) := by
    intro piece hp
    by_cases hnil : piece = []
    · simp [hnil, words_nil, occurs, hne]
    · simp [words_eq_singleton hp hnil]
  rcases exists_last_piece isBlank s with hs | ⟨before, c, piece, hs, hc, hp⟩
  · exact hpiece s hs
  · have hmark : c ∉ mark := by
      intro hmem
      rw [h c hmem] at hc
      cases hc
    have hshorter : before.length < s.length := by simp [hs]
    rw [hs, occurs_append_cons hne hmark, words_append_cons hc, Bool.or_eq_true,
      occurs_iff_exists_word hne h before, hpiece piece hp]
    simp only [List.mem_append, or_and_right, exists_or]
termination_by s.length

end Occurrences

end Text

end ApiPages
