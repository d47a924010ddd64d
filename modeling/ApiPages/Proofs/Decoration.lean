import ApiPages.Comment.Basic
import ApiPages.Proofs.Segment

/-! # The decoration of a comment

A comment is usually written with its delimiters on lines of their own and with stars in front of every line
(`decorate`).  Cleaning it gives back the lines as they are, between an empty line and what stands before the closing
delimiter (`clean_decorate`).  Both are blank, so neither the segments nor what the comment says depend on how it is
decorated. -/

namespace ApiPages

namespace Comment

/-- Spaces and tabs at the beginning of a line. -/
structure Indent where
  text : Text
  spaceOrTab : ∀ c ∈ text, c = ' ' ∨ c = '\t'

/-- What stands before a line of a comment: an indent and at least one star. -/
structure Margin where
  indent : Indent
  stars : Nat
  stars_pos : 0 < stars

def Margin.text (m : Margin) : Text :=
  m.indent.text ++ List.replicate m.stars '*'

/-- A line behind its margin, with one space between them. -/
def Margin.row (m : Margin) (line : Text) : Text :=
  m.text ++ ' ' :: line

/-- The comment that shows lines behind their margins, all lines with the same ending. -/
def decorate (e : Text.Ending) (rows : List (Margin × Text)) (closing : Indent) : Text :=
  "/**".toList ++ e.text ++ (rows.flatMap fun row => row.1.row row.2 ++ e.text) ++ closing.text ++ "*/".toList

/-! ### Margins -/

variable {e : Text.Ending} {rows : List (Margin × Text)} {line : Text}

theorem Indent.isBlank (i : Indent) : ∀ c ∈ i.text, Text.isBlank c = true := by
  intro c hc
  rcases i.spaceOrTab c hc with rfl | rfl <;> decide

theorem Indent.oneLine (i : Indent) : i.text.OneLine := by
  constructor <;>
    · intro hc
      rcases i.spaceOrTab _ hc with h | h <;> cases h

theorem Margin.oneLine_row (m : Margin) (h : line.OneLine) : (m.row line).OneLine := by
  constructor
  · simp [row, text, m.indent.oneLine.noFeed, h.noFeed]
  · simp [row, text, m.indent.oneLine.noReturn, h.noReturn]

/-- The first star of a margin is behind its indent, the others are behind the first one. -/
theorem Margin.dropWhile_row (m : Margin) (line : Text) :
    (m.row line).dropWhile Text.isBlank = '*' :: (List.replicate (m.stars - 1) '*' ++ ' ' :: line) := by
  obtain ⟨n, hn⟩ : ∃ n, m.stars = n + 1 := ⟨m.stars - 1, by have := m.stars_pos; omega⟩
  have hstar : Text.isBlank '*' = false := by decide
  rw [row, text, List.append_assoc, List.dropWhile_append_of_pos m.indent.isBlank, hn, List.replicate_succ,
    List.cons_append, List.dropWhile_cons_of_neg (by simp [hstar])]
  rfl

/-- Exactly the margin and the space after it are removed, whatever the line begins with. -/
theorem dropMarker_row (m : Margin) (line : Text) : dropMarker (m.row line) = line := by
  have hstars : (List.replicate (m.stars - 1) '*' ++ ' ' :: line).dropWhile (· == '*') = ' ' :: line := by
    rw [List.dropWhile_append_of_pos (by simp)]
    rfl
  simp only [dropMarker, m.dropWhile_row, hstars]
  simp

theorem dropMarker_of_blank {s : Text} (h : ∀ c ∈ s, Text.isBlank c = true) : dropMarker s = s := by
  have hd : s.dropWhile Text.isBlank = [] := List.dropWhile_eq_nil_iff.mpr h
  simp only [dropMarker, hd]

/-! ### Cleaning -/

theorem dropClosing_append (s : Text) : dropClosing (s ++ ['*', '/']) = s := by
  unfold dropClosing
  rw [Text.dropSuffix?_append, Option.getD_some]

theorem trim_decorate (e : Text.Ending) (rows : List (Margin × Text)) (closing : Indent) :
    Text.trim (decorate e rows closing) = decorate e rows closing := by
  refine Text.Stripped.strip_eq ⟨?_, ?_⟩
  · intro c hc
    simp only [decorate, String.toList, List.append_assoc] at hc
    cases hc
    decide
  · intro c hc
    rw [decorate, Option.mem_def, List.getLast?_append_of_ne_nil _ (by decide)] at hc
    cases hc
    decide

theorem lines_rows (h : ∀ row ∈ rows, row.2.OneLine) (rest : Text) :
    Text.lines ((rows.flatMap fun row => row.1.row row.2 ++ e.text) ++ rest) =
      rows.map (fun row => row.1.row row.2) ++ Text.lines rest := by
  induction rows with
  | nil => rfl
  | cons row rows ih =>
      obtain ⟨hrow, hrows⟩ := List.forall_mem_cons.mp h
      rw [List.flatMap_cons, List.append_assoc, Text.lines_append_ending e (row.1.oneLine_row hrow), ih hrows,
        List.map_cons, List.cons_append]

/-- The lines between the delimiters: what is left of the first line, the rows, and what precedes the closing
delimiter on its line. -/
theorem lines_decorate (h : ∀ row ∈ rows, row.2.OneLine) (closing : Indent) :
    Text.lines (dropClosing (dropOpening (Text.trim (decorate e rows closing)))) =
      [] :: rows.map (fun row => row.1.row row.2) ++ Text.lines closing.text := by
  have hopening : dropOpening (decorate e rows closing) =
      [] ++ e.text ++ ((rows.flatMap fun row => row.1.row row.2 ++ e.text) ++ closing.text) ++ ['*', '/'] := by
    simp [decorate, dropOpening]
  have hempty : Text.OneLine [] := ⟨List.not_mem_nil, List.not_mem_nil⟩
  rw [trim_decorate, hopening, dropClosing_append, Text.lines_append_ending e hempty, lines_rows h, List.cons_append]

theorem clean_decorate (h : ∀ row ∈ rows, row.2.OneLine) (closing : Indent) :
    clean (decorate e rows closing) =
      Text.join ['\n'] ([] :: rows.map Prod.snd ++ Text.lines closing.text) := by
  have hrows : (rows.map fun row => row.1.row row.2).map dropMarker = rows.map Prod.snd := by
    rw [List.map_map]
    exact List.map_congr_left fun row _ => dropMarker_row row.1 row.2
  have hlast : (Text.lines closing.text).map dropMarker = Text.lines closing.text := by
    rw [Text.lines_of_notMem closing.oneLine.noFeed]
    split
    · rfl
    · rw [List.map_singleton, dropMarker_of_blank closing.isBlank]
  unfold clean
  rw [lines_decorate h, List.map_append, List.map_cons, hrows, hlast]
  rfl

/-! ### What a comment says -/

theorem filter_hasWords_lines (closing : Indent) : (Text.lines closing.text).filter Segment.hasWords = [] := by
  rw [Text.lines_of_notMem closing.oneLine.noFeed]
  split
  · rfl
  · simp [Segment.hasWords, Text.words_eq_nil closing.isBlank]

theorem ofText_clean_decorate (h : ∀ row ∈ rows, row.2.OneLine) (closing : Indent) :
    Segment.ofText (clean (decorate e rows closing)) =
      Segment.collect ⟨Segment.descriptionTag, [], []⟩ (rows.map Prod.snd) := by
  have hlines : ∀ row ∈ [] :: rows.map Prod.snd ++ Text.lines closing.text, Text.OneLine row := by
    intro row hrow
    rcases List.mem_append.mp hrow with hrow | hrow
    · rcases List.mem_cons.mp hrow with rfl | hrow
      · exact ⟨List.not_mem_nil, List.not_mem_nil⟩
      · obtain ⟨row', hrow', rfl⟩ := List.mem_map.mp hrow
        exact h row' hrow'
    · rw [Text.lines_of_notMem closing.oneLine.noFeed] at hrow
      split at hrow
      · cases hrow
      · rw [List.mem_singleton] at hrow
        rw [hrow]
        exact closing.oneLine
  have hfilter : ([] :: rows.map Prod.snd ++ Text.lines closing.text).filter Segment.hasWords =
      (rows.map Prod.snd).filter Segment.hasWords := by
    rw [List.filter_append, filter_hasWords_lines, List.append_nil, List.filter_cons_of_neg (by decide)]
  rw [clean_decorate h, Segment.ofText_join hlines, ← Segment.collect_filter, hfilter, Segment.collect_filter]

theorem occurs_clean_decorate (h : ∀ row ∈ rows, row.2.OneLine) (closing : Indent) {mark : Text}
    (hmark : mark ∈ inheritMarks) :
    Text.occurs mark (clean (decorate e rows closing)) = (rows.map Prod.snd).any (Text.occurs mark) := by
  have hat : '@' ∈ mark ∧ '\n' ∉ mark := by
    revert mark
    decide
  have hempty : Text.occurs mark [] = false := by
    rw [Text.occurs, List.isEmpty_eq_false_iff]
    exact List.ne_nil_of_mem hat.1
  have hclosing : (Text.lines closing.text).any (Text.occurs mark) = false := by
    rw [Text.lines_of_notMem closing.oneLine.noFeed]
    split
    · rfl
    · rw [List.any_cons, List.any_nil, Bool.or_false]
      by_contra hocc
      have hc := closing.isBlank '@' (Text.mem_of_occurs (by simpa using hocc) hat.1)
      exact absurd hc (by decide)
  rw [clean_decorate h, Text.occurs_join_feed (List.ne_nil_of_mem hat.1) hat.2, List.any_append, List.any_cons,
    hempty, hclosing, Bool.false_or, Bool.or_false]

theorem read_decorate (h : ∀ row ∈ rows, row.2.OneLine) (closing : Indent) (ns : Text) :
    read ns (decorate e rows closing) =
      ofSegments ns (inheritMarks.any fun mark => (rows.map Prod.snd).any (Text.occurs mark))
        (Segment.collect ⟨Segment.descriptionTag, [], []⟩ (rows.map Prod.snd)) := by
  have hmarks : inheritMarks.any (fun mark => Text.occurs mark (clean (decorate e rows closing))) =
      inheritMarks.any fun mark => (rows.map Prod.snd).any (Text.occurs mark) := by
    rw [Bool.eq_iff_iff, List.any_eq_true, List.any_eq_true]
    refine exists_congr fun mark => and_congr_right fun hmark => ?_
    rw [occurs_clean_decorate h closing hmark]
  simp only [read, hmarks, ofText_clean_decorate h]

/-- **The decoration of a comment is transparent.**  Its segments are those of its lines; the lines of an example
are kept character by character, up to the next tag and without the blank ones; and any two decorations of the same
lines say the same. -/
theorem decoration_transparent (e : Text.Ending) (rows : List (Margin × Text)) (closing : Indent)
    (h : ∀ row ∈ rows, row.2.OneLine) :
    Segment.ofText (clean (decorate e rows closing)) = Segment.ofText (Text.join ['\n'] (rows.map Prod.snd)) ∧
    (∀ head lines, ⟨Segment.exampleTag, head, lines⟩ ∈ Segment.ofText (clean (decorate e rows closing)) ↔
      ∃ row rest, row :: rest <:+ rows.map Prod.snd ∧
        Text.words row = ('@' :: Segment.exampleTag) :: head ∧
        lines = (rest.takeWhile (!Segment.opensTag ·)).filter Segment.hasWords) ∧
    ∀ e' rows' closing', rows'.map Prod.snd = rows.map Prod.snd →
      ∀ ns, read ns (decorate e' rows' closing') = read ns (decorate e rows closing) := by
  have hlines : ∀ line ∈ rows.map Prod.snd, Text.OneLine line := List.forall_mem_map.mpr h
  refine ⟨?_, ?_, ?_⟩
  · rw [ofText_clean_decorate h, Segment.ofText_join hlines]
  · intro head lines
    rw [ofText_clean_decorate h]
    exact Segment.mem_collect_example_iff (by decide)
  · intro e' rows' closing' hsame ns
    have h' : ∀ row ∈ rows', row.2.OneLine := List.forall_mem_map.mp (hsame ▸ hlines)
    rw [read_decorate h', read_decorate h, hsame]

/-! ### Two decorations of one comment -/

/-- Lines that begin with a space, a star and a tag. -/
def greeting : List Text :=
  ["Greets. \x7b@inheritDoc\x7d", "@example", "  hello();", "* again", "", "@see Door"]

def plainMargin : Margin := ⟨⟨[' '], by simp⟩, 1, by decide⟩

def wideMargin : Margin := ⟨⟨['\t', ' ', '\t'], by simp⟩, 3, by decide⟩

/-- The lines behind margins that alternate. -/
def boxed : List (Margin × Text) :=
  greeting.zipIdx.map fun (line, n) => (if n % 2 = 0 then wideMargin else plainMargin, line)

/-- One margin and line feeds, or margins that alternate and carriage returns as well: the comments differ, the
example keeps its two lines in both, and both say the same. -/
theorem greeting_decoration_transparent :
    let plain := greeting.map (plainMargin, ·)
    let comment := decorate .feed plain ⟨[' '], by simp⟩
    let other := decorate .returnFeed boxed ⟨[], by simp⟩
    (∀ row ∈ plain, row.2.OneLine) ∧ other ≠ comment ∧
    Segment.ofText (clean comment) = Segment.ofText (Text.join ['\n'] greeting) ∧
    ⟨Segment.exampleTag, [], ["  hello();", "* again"]⟩ ∈ Segment.ofText (clean comment) ∧
    ∀ ns, read ns other = read ns comment := by
  have hplain : ∀ row ∈ greeting.map (plainMargin, ·), row.2.OneLine := by
    have hfree : ∀ line ∈ greeting, '\n' ∉ line ∧ '\r' ∉ line := by decide
    intro row hrow
    obtain ⟨line, hline, rfl⟩ := List.mem_map.mp hrow
    exact ⟨(hfree line hline).1, (hfree line hline).2⟩
  obtain ⟨hsegments, hexample, hread⟩ :=
    decoration_transparent .feed (greeting.map (plainMargin, ·)) ⟨[' '], by simp⟩ hplain
  have hsame : boxed.map Prod.snd = (greeting.map (plainMargin, ·)).map Prod.snd := by decide
  refine ⟨hplain, by decide, ?_, (hexample _ _).mpr ?_, hread .returnFeed boxed ⟨[], by simp⟩ hsame⟩
  · rwa [List.map_map, show (Prod.snd ∘ (plainMargin, ·) : Text → Text) = id from rfl, List.map_id] at hsegments
  · refine ⟨"@example", greeting.drop 2, ⟨greeting.take 1, by decide⟩, by decide, by decide⟩

end Comment

end ApiPages
