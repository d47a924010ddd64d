import ApiPages.Comment.Segment
import ApiPages.Proofs.Lines

/-! # Cutting a comment into segments

A row of a comment is blank, opens a tag, or continues the open segment (`row_cases`), and `collect` does one thing
in each case.  From this follow, by induction on the rows, of which rows each segment is made (`collect_eq`,
`mem_tail_collect_iff`), that the segments hold all words in their order (`exists_written_collect`), and that a line
which continues a segment could not have opened another one (`tidy_of_mem_collect`). -/

namespace ApiPages

namespace Segment

variable {s current seg : Segment} {row tag : Text} {head rows : List Text}

/-! ### Rows -/

/-- Whether the first word of a row starts with `@`. -/
def opensTag (row : Text) : Bool :=
  match Text.words row with
  | ('@' :: _) :: _ => true
  | _ => false

/-- Whether a row is not blank. -/
def hasWords (row : Text) : Bool :=
  !(Text.words row).isEmpty

/-- The row has words, and the first of them does not start with `@`. -/
def Continues (row : Text) : Prop :=
  ∃ word rest, Text.words row = word :: rest ∧ word.head? ≠ some '@'

theorem row_cases (row : Text) :
    Text.words row = [] ∨ (∃ tag head, Text.words row = ('@' :: tag) :: head) ∨ Continues row := by
  rcases hw : Text.words row with _ | ⟨_ | ⟨c, tag⟩, rest⟩
  · exact .inl rfl
  · exact .inr (.inr ⟨[], rest, hw, by simp⟩)
  · by_cases hc : c = '@'
    · subst hc
      exact .inr (.inl ⟨tag, rest, rfl⟩)
    · exact .inr (.inr ⟨c :: tag, rest, hw, by simpa using hc⟩)

theorem opensTag_of_words_eq_nil (h : Text.words row = []) : opensTag row = false := by
  simp [opensTag, h]

theorem opensTag_of_words_eq_cons (h : Text.words row = ('@' :: tag) :: head) : opensTag row = true := by
  simp [opensTag, h]

theorem Continues.opensTag_eq (h : Continues row) : opensTag row = false := by
  obtain ⟨word, rest, hw, hat⟩ := h
  unfold opensTag
  rw [hw]
  split
  · rename_i heq
    cases heq
    exact absurd rfl hat
  · rfl

theorem hasWords_of_words_eq_nil (h : Text.words row = []) : hasWords row = false := by
  simp [hasWords, h]

theorem Continues.hasWords_eq (h : Continues row) : hasWords row = true := by
  obtain ⟨word, rest, hw, _⟩ := h
  simp [hasWords, hw]

theorem Continues.trim (h : Continues row) : Continues (Text.trim row) := by
  unfold Continues
  rwa [Text.words_trim]

/-! ### One row -/

theorem collect_blank (h : Text.words row = []) : collect current (row :: rows) = collect current rows := by
  rw [collect, h]

theorem collect_tag (h : Text.words row = ('@' :: tag) :: head) :
    collect current (row :: rows) = current :: collect ⟨tag, head, []⟩ rows := by
  rw [collect, h]
  rfl

theorem collect_line (h : Continues row) :
    collect current (row :: rows) = collect (current.push row) rows := by
  have hopens := h.opensTag_eq
  obtain ⟨word, rest, hw, _⟩ := h
  rw [collect, hw]
  split
  · contradiction
  · rename_i heq
    rw [opensTag_of_words_eq_cons (hw.trans heq)] at hopens
    cases hopens
  · rfl

/-- Blank rows do not matter. -/
theorem collect_filter (current : Segment) (rows : List Text) :
    collect current (rows.filter hasWords) = collect current rows := by
  induction rows generalizing current with
  | nil => rfl
  | cons row rows ih =>
      rcases row_cases row with hb | ⟨tag, head, ht⟩ | hc
      · rw [List.filter_cons_of_neg (by simp [hasWords_of_words_eq_nil hb]), collect_blank hb, ih]
      · rw [List.filter_cons_of_pos (by simp [hasWords, ht]), collect_tag ht, collect_tag ht, ih]
      · rw [List.filter_cons_of_pos hc.hasWords_eq, collect_line hc, collect_line hc, ih]

/-! ### The rows of a segment -/

/-- Adds the rows that are not blank as continuation lines. -/
def pushAll (s : Segment) (rows : List Text) : Segment :=
  (rows.filter hasWords).foldl push s

theorem pushAll_cons_of_blank (h : Text.words row = []) (s : Segment) (rows : List Text) :
    s.pushAll (row :: rows) = s.pushAll rows := by
  unfold pushAll
  rw [List.filter_cons_of_neg (by simp [hasWords_of_words_eq_nil h])]

theorem pushAll_cons_of_continues (h : Continues row) (s : Segment) (rows : List Text) :
    s.pushAll (row :: rows) = (s.push row).pushAll rows := by
  unfold pushAll
  rw [List.filter_cons_of_pos h.hasWords_eq, List.foldl_cons]

/-- An example keeps its rows as they are. -/
theorem pushAll_example (head lines rows : List Text) :
    (⟨exampleTag, head, lines⟩ : Segment).pushAll rows = ⟨exampleTag, head, lines ++ rows.filter hasWords⟩ := by
  unfold pushAll
  induction rows.filter hasWords generalizing lines with
  | nil => simp
  | cons row rows ih =>
      have hpush : (⟨exampleTag, head, lines⟩ : Segment).push row = ⟨exampleTag, head, lines ++ [row]⟩ := by
        simp [push, isVerbatim]
      rw [List.foldl_cons, hpush, ih, List.append_assoc, List.singleton_append]

theorem pushAll_tag (s : Segment) (rows : List Text) : (s.pushAll rows).tag = s.tag := by
  unfold pushAll
  induction rows.filter hasWords generalizing s with
  | nil => rfl
  | cons row rows ih => rw [List.foldl_cons, ih, push]

theorem pushAll_head (s : Segment) (rows : List Text) : (s.pushAll rows).head = s.head := by
  unfold pushAll
  induction rows.filter hasWords generalizing s with
  | nil => rfl
  | cons row rows ih => rw [List.foldl_cons, ih, push]

/-- The open segment takes the rows up to the first that opens a tag. -/
theorem collect_eq (current : Segment) (rows : List Text) :
    collect current rows =
      current.pushAll (rows.takeWhile (!opensTag ·)) :: (collect current rows).tail := by
  induction rows generalizing current with
  | nil => rfl
  | cons row rows ih =>
      rcases row_cases row with hb | ⟨tag, head, ht⟩ | hc
      · rw [List.takeWhile_cons_of_pos (by simp [opensTag_of_words_eq_nil hb]), pushAll_cons_of_blank hb,
          collect_blank hb]
        exact ih current
      · rw [List.takeWhile_cons_of_neg (by simp [opensTag_of_words_eq_cons ht]), collect_tag ht]
        rfl
      · rw [List.takeWhile_cons_of_pos (by simp [hc.opensTag_eq]), pushAll_cons_of_continues hc, collect_line hc]
        exact ih (current.push row)

/-- The segment begins with one of the rows, which opens its tag, and takes the rows after it up to the next tag. -/
def BeginsIn (rows : List Text) (seg : Segment) : Prop :=
  ∃ row rest tag head, row :: rest <:+ rows ∧ Text.words row = ('@' :: tag) :: head ∧
    seg = (⟨tag, head, []⟩ : Segment).pushAll (rest.takeWhile (!opensTag ·))

theorem BeginsIn.cons (h : BeginsIn rows seg) (row : Text) : BeginsIn (row :: rows) seg := by
  obtain ⟨row', rest, tag, head, hsuffix, hw, hseg⟩ := h
  exact ⟨row', rest, tag, head, hsuffix.trans (List.suffix_cons _ _), hw, hseg⟩

theorem beginsIn_cons_of_not_opensTag (hrow : opensTag row = false) :
    BeginsIn (row :: rows) seg ↔ BeginsIn rows seg := by
  constructor
  · rintro ⟨row', rest, tag, head, hsuffix, hw, hseg⟩
    rcases List.suffix_cons_iff.mp hsuffix with heq | hsuffix
    · cases heq
      rw [opensTag_of_words_eq_cons hw] at hrow
      cases hrow
    · exact ⟨row', rest, tag, head, hsuffix, hw, hseg⟩
  · intro h
    exact h.cons row

theorem beginsIn_cons_of_tag (ht : Text.words row = ('@' :: tag) :: head) :
    BeginsIn (row :: rows) seg ↔
      seg = (⟨tag, head, []⟩ : Segment).pushAll (rows.takeWhile (!opensTag ·)) ∨ BeginsIn rows seg := by
  constructor
  · rintro ⟨row', rest, tag', head', hsuffix, hw, hseg⟩
    rcases List.suffix_cons_iff.mp hsuffix with heq | hsuffix
    · cases heq
      rw [ht] at hw
      cases hw
      exact .inl hseg
    · exact .inr ⟨row', rest, tag', head', hsuffix, hw, hseg⟩
  · rintro (hseg | h)
    · exact ⟨row, rows, tag, head, List.suffix_refl _, ht, hseg⟩
    · exact h.cons row

/-- The segments after the open one are those that begin in the rows. -/
theorem mem_tail_collect_iff : seg ∈ (collect current rows).tail ↔ BeginsIn rows seg := by
  induction rows generalizing current with
  | nil => simp [collect, BeginsIn]
  | cons row rows ih =>
      rcases row_cases row with hb | ⟨tag, head, ht⟩ | hc
      · rw [collect_blank hb, ih, beginsIn_cons_of_not_opensTag (opensTag_of_words_eq_nil hb)]
      · rw [collect_tag ht, List.tail_cons, collect_eq, List.mem_cons, ih, beginsIn_cons_of_tag ht]
      · rw [collect_line hc, ih, beginsIn_cons_of_not_opensTag hc.opensTag_eq]

/-- What holds of the open segment and of every tag that a row opens, and is kept when a row is added, holds of all
segments. -/
theorem forall_mem_collect {P : Segment → Prop} (hcurrent : P current)
    (hopen : ∀ tag head, (∃ row ∈ rows, Text.words row = ('@' :: tag) :: head) → P ⟨tag, head, []⟩)
    (hpush : ∀ s, ∀ row ∈ rows, P s → Continues row → P (s.push row)) : ∀ seg ∈ collect current rows, P seg := by
  induction rows generalizing current with
  | nil => exact List.forall_mem_singleton.mpr hcurrent
  | cons row rows ih =>
      have hopen' : ∀ tag head, (∃ row ∈ rows, Text.words row = ('@' :: tag) :: head) → P ⟨tag, head, []⟩ :=
        fun tag head ⟨row', hrow, hw⟩ => hopen tag head ⟨row', List.mem_cons_of_mem row hrow, hw⟩
      have hpush' : ∀ s, ∀ row ∈ rows, P s → Continues row → P (s.push row) := fun s row' hrow =>
        hpush s row' (List.mem_cons_of_mem row hrow)
      rcases row_cases row with hb | ⟨tag, head, ht⟩ | hc
      · rw [collect_blank hb]
        exact ih hcurrent hopen' hpush'
      · rw [collect_tag ht]
        exact List.forall_mem_cons.mpr
          ⟨hcurrent, ih (hopen tag head ⟨row, List.mem_cons_self, ht⟩) hopen' hpush'⟩
      · rw [collect_line hc]
        exact ih (hpush current row List.mem_cons_self hcurrent hc) hopen' hpush'

/-- The segments of joined lines are those of the lines. -/
theorem ofText_join (h : ∀ row ∈ rows, Text.OneLine row) :
    ofText (Text.join ['\n'] rows) = collect ⟨descriptionTag, [], []⟩ rows := by
  unfold ofText
  rw [← collect_filter, Text.filter_lines_join h (by decide), collect_filter]

/-- An example keeps the rows after its tag as they are, up to the next tag and without the blank ones. -/
theorem mem_collect_example_iff (htag : current.tag ≠ exampleTag) {lines : List Text} :
    ⟨exampleTag, head, lines⟩ ∈ collect current rows ↔
      ∃ row rest, row :: rest <:+ rows ∧ Text.words row = ('@' :: exampleTag) :: head ∧
        lines = (rest.takeWhile (!opensTag ·)).filter hasWords := by
  have hfirst : ⟨exampleTag, head, lines⟩ ≠ current.pushAll (rows.takeWhile (!opensTag ·)) := by
    intro heq
    have := congrArg Segment.tag heq
    rw [pushAll_tag] at this
    exact htag this.symm
  rw [collect_eq, List.mem_cons, or_iff_right hfirst, mem_tail_collect_iff]
  constructor
  · rintro ⟨row, rest, tag, head', hsuffix, hw, hseg⟩
    have ht := congrArg Segment.tag hseg
    rw [pushAll_tag] at ht
    subst ht
    rw [pushAll_example] at hseg
    cases hseg
    exact ⟨row, rest, hsuffix, hw, List.nil_append _⟩
  · rintro ⟨row, rest, hsuffix, hw, rfl⟩
    refine ⟨row, rest, exampleTag, head, hsuffix, hw, ?_⟩
    rw [pushAll_example, List.nil_append]

/-! ### Words -/

/-- The words of a tag as they stand in the text, the tag itself first. -/
def written (s : Segment) : List Text :=
  ('@' :: s.tag) :: s.words

theorem words_push (s : Segment) (row : Text) : (s.push row).words = s.words ++ Text.words row := by
  have hrow : Text.words (if s.isVerbatim then row else Text.trim row) = Text.words row := by
    split
    · rfl
    · exact Text.words_trim row
  simp only [words, push, List.flatMap_append, List.flatMap_cons, List.flatMap_nil, List.append_nil, hrow,
    List.append_assoc]

/-- The open segment and the tags after it hold the words of the rows in their order. -/
theorem exists_written_collect (current : Segment) (rows : List Text) :
    ∃ first rest, collect current rows = first :: rest ∧
      first.words ++ rest.flatMap written = current.words ++ rows.flatMap Text.words := by
  induction rows generalizing current with
  | nil => exact ⟨current, [], rfl, rfl⟩
  | cons row rows ih =>
      rcases row_cases row with hb | ⟨tag, head, ht⟩ | hc
      · obtain ⟨first, rest, hcollect, hwords⟩ := ih current
        refine ⟨first, rest, (collect_blank hb).trans hcollect, ?_⟩
        rw [hwords, List.flatMap_cons, hb, List.nil_append]
      · obtain ⟨first, rest, hcollect, hwords⟩ := ih ⟨tag, head, []⟩
        have hfirst : first.tag = tag := by
          have heq := collect_eq ⟨tag, head, []⟩ rows
          rw [hcollect] at heq
          rw [(List.cons.inj heq).1, pushAll_tag]
        refine ⟨current, first :: rest, (collect_tag ht).trans (by rw [hcollect]), ?_⟩
        have hhead : (⟨tag, head, []⟩ : Segment).words = head := by simp [words]
        rw [hhead] at hwords
        rw [List.flatMap_cons, List.flatMap_cons, ht, written, hfirst, List.cons_append, hwords,
          List.cons_append]
      · obtain ⟨first, rest, hcollect, hwords⟩ := ih (current.push row)
        refine ⟨first, rest, (collect_line hc).trans hcollect, ?_⟩
        rw [hwords, words_push, List.flatMap_cons, List.append_assoc]

theorem words_of_ofText {text : Text} {description : Segment} {tags : List Segment}
    (h : ofText text = description :: tags) : Text.words text = description.words ++ tags.flatMap written := by
  obtain ⟨first, rest, hcollect, hwords⟩ := exists_written_collect ⟨descriptionTag, [], []⟩ (Text.lines text)
  obtain ⟨rfl, rfl⟩ := List.cons.inj (hcollect.symm.trans h)
  rw [Text.flatMap_words_lines] at hwords
  exact hwords.symm

/-! ### Continuation lines -/

/-- No continuation line is blank or opens a tag, and outside of examples they have no white space around them. -/
structure Tidy (s : Segment) : Prop where
  continues : ∀ line ∈ s.lines, Continues line
  stripped : s.tag ≠ exampleTag → ∀ line ∈ s.lines, Text.Stripped Text.isBlank line

theorem tidy_nil (tag : Text) (head : List Text) : Tidy ⟨tag, head, []⟩ where
  continues := List.forall_mem_nil _
  stripped _ := List.forall_mem_nil _

theorem Tidy.push (h : Tidy s) (hrow : Continues row) : Tidy (s.push row) := by
  constructor
  · intro line hline
    rcases List.mem_append.mp hline with hline | hline
    · exact h.continues line hline
    · rw [List.mem_singleton] at hline
      rw [hline]
      split
      · exact hrow
      · exact hrow.trim
  · intro htag line hline
    have htag : s.tag ≠ exampleTag := htag
    rcases List.mem_append.mp hline with hline | hline
    · exact h.stripped htag line hline
    · rw [List.mem_singleton] at hline
      rw [hline, if_neg (by simpa [isVerbatim] using htag)]
      exact Text.stripped_strip Text.isBlank row

theorem tidy_of_mem_collect (h : Tidy current) (hseg : seg ∈ collect current rows) : Tidy seg :=
  forall_mem_collect h (fun tag head _ => tidy_nil tag head) (fun _ _ _ hs hrow => hs.push hrow) seg hseg

/-- **Cutting a text into segments loses, invents and reorders nothing.**  The words of the description and then of
each tag, the tag itself before its words, are the words of the text.  The description comes first and has no words
of its own before its lines. -/
theorem ofText_keeps_words (s : Text) :
    (∃ first rest, ofText s = first :: rest ∧ first.tag = descriptionTag ∧ first.head = [] ∧
      first.words ++ rest.flatMap (fun seg => ('@' :: seg.tag) :: seg.words) = Text.words s) ∧
    ∀ seg ∈ ofText s, seg.Tidy := by
  constructor
  · obtain ⟨first, rest, hcollect, hwords⟩ := exists_written_collect ⟨descriptionTag, [], []⟩ (Text.lines s)
    have heq := collect_eq ⟨descriptionTag, [], []⟩ (Text.lines s)
    rw [hcollect] at heq
    obtain ⟨hfirst, _⟩ := List.cons.inj heq
    refine ⟨first, rest, hcollect, ?_, ?_, ?_⟩
    · rw [hfirst, pushAll_tag]
    · rw [hfirst, pushAll_head]
    · rw [Text.flatMap_words_lines] at hwords
      exact hwords
  · intro seg hseg
    exact tidy_of_mem_collect (tidy_nil _ _) hseg

/-- A description, a tag that goes on in the next line, an example with an indented line, and a tag without a name. -/
def mail : Text :=
  "Sends mail.\r\n\r\n@param string $to\r\n  the address\r\n@example once\n\n  send();\n @\n"

/-- Its eleven words, in lines of both endings, are all kept; only the line of the example keeps its indent. -/
theorem mail_keeps_words :
    (ofText mail).map Segment.lines =
      ([["Sends mail."], ["the address"], ["  send();"], []] : List (List Text)) ∧
    (Text.words mail).length = 11 ∧
    (∃ first rest, ofText mail = first :: rest ∧ first.tag = descriptionTag ∧ first.head = [] ∧
      first.words ++ rest.flatMap (fun seg => ('@' :: seg.tag) :: seg.words) = Text.words mail) ∧
    ∀ seg ∈ ofText mail, seg.Tidy := by
  refine ⟨by decide +kernel, by decide +kernel, ?_⟩
  exact ofText_keeps_words mail

end Segment

end ApiPages
