import Mathlib.Data.List.Forall2
import ApiPages.Page.Example
import ApiPages.Proofs.Replacement

/-! # The lines of examples

An example is moved to the left as a whole or not at all, if its lines are indented alike.  But one indent is chosen for
all lines, the widest of a few that some line has, and it is removed only from the lines that have it
(`splitOn_replaceAll_indented`).  A line that is indented by less stays where it is, while lines that were to the right
of it may be moved to the left of it.  So nothing but spaces at the beginning of lines is changed, and the layout is
kept exactly if there are no such lines (`render_rows`, `nested_block_misaligned`). -/

namespace ApiPages

namespace Example

variable {w : Nat} {s t line more : Text} {rows : List Text}

/-! ### Indents -/

def isSpace (c : Char) : Bool :=
  c == ' '

/-- The number of spaces with which a line begins. -/
def indent (line : Text) : Nat :=
  (line.takeWhile isSpace).length

/-- Removes an indent of a width from a line that has it. -/
def shift (w : Nat) (line : Text) : Text :=
  if w ≤ indent line then line.drop w else line

theorem isSpace_of_mem_replicate {c : Char} (h : c ∈ List.replicate w ' ') : isSpace c = true := by
  rw [List.eq_of_mem_replicate h]
  rfl

theorem indent_replicate_append (w : Nat) (line : Text) :
    indent (List.replicate w ' ' ++ line) = w + indent line := by
  rw [indent, List.takeWhile_append_of_pos fun c => isSpace_of_mem_replicate, List.length_append, List.length_replicate, indent]

theorem replicate_prefix_iff : List.replicate w ' ' <+: line ↔ w ≤ indent line := by
  constructor
  · rintro ⟨rest, rfl⟩
    rw [indent_replicate_append]
    exact Nat.le_add_right w _
  · intro h
    have hall : line.takeWhile isSpace = List.replicate (indent line) ' ' := by
      refine List.eq_replicate_iff.mpr ⟨rfl, fun c hc => ?_⟩
      have hc : isSpace c = true := List.mem_takeWhile_imp hc
      exact beq_iff_eq.mp hc
    have hprefix : List.replicate w ' ' <+: List.replicate (indent line) ' ' := by
      refine ⟨List.replicate (indent line - w) ' ', ?_⟩
      rw [List.replicate_append_replicate, Nat.add_sub_cancel' h]
    exact hprefix.trans (hall ▸ List.takeWhile_prefix isSpace)

/-- A line that has an indent is made of it and of what is left. -/
theorem eq_append_shift (h : w ≤ indent line) : line = List.replicate w ' ' ++ shift w line := by
  obtain ⟨rest, hrest⟩ := replicate_prefix_iff.mpr h
  rw [shift, if_pos h, ← hrest, List.drop_left' List.length_replicate]

theorem shift_of_lt (h : indent line < w) : shift w line = line :=
  if_neg (Nat.not_le.mpr h)

theorem indent_shift (w : Nat) (line : Text) :
    indent (shift w line) = if w ≤ indent line then indent line - w else indent line := by
  split
  · rename_i h
    have hline := congrArg indent (eq_append_shift h)
    rw [indent_replicate_append] at hline
    omega
  · rename_i h
    rw [shift, if_neg h]

/-- Nothing but spaces at the beginning of a line is removed. -/
theorem dropWhile_shift (w : Nat) (line : Text) : (shift w line).dropWhile isSpace = line.dropWhile isSpace := by
  by_cases h : w ≤ indent line
  · rw [eq_append_shift h, List.dropWhile_append_of_pos fun c => isSpace_of_mem_replicate, ← eq_append_shift h]
  · rw [shift_of_lt (Nat.not_le.mp h)]

theorem mem_of_mem_shift {c : Char} (h : c ∈ shift w line) : c ∈ line := by
  unfold shift at h
  split at h
  · exact List.mem_of_mem_drop h
  · exact h

/-- What follows a line on the next ones does not count for its indent. -/
theorem indent_append (h : more.head? ≠ some ' ') (line : Text) : indent (line ++ more) = indent line := by
  have hmore : more.takeWhile isSpace = [] := by
    cases more with
    | nil => rfl
    | cons c more =>
        have hc : ¬ isSpace c = true := by simpa [isSpace] using h
        rw [List.takeWhile_cons_of_neg hc]
  unfold indent
  rw [List.takeWhile_append]
  split
  · rename_i hlength
    rw [hmore, List.append_nil, hlength]
  · rfl

theorem shift_append (h : more.head? ≠ some ' ') (w : Nat) (line : Text) :
    shift w (line ++ more) = shift w line ++ more := by
  have hlength : indent line ≤ line.length := (List.takeWhile_prefix isSpace).length_le
  unfold shift
  rw [indent_append h]
  split
  · rw [List.drop_append_of_le_length (by omega)]
  · rfl

theorem indent_join (line : Text) (rows : List Text) : indent (Text.join ['\n'] (line :: rows)) = indent line := by
  cases rows with
  | nil => rw [Text.join, List.intercalate_singleton]
  | cons row rows => rw [Text.join_cons_cons, List.append_assoc, indent_append (by simp)]

theorem shift_join (w : Nat) (line : Text) (rows : List Text) :
    shift w (Text.join ['\n'] (line :: rows)) = Text.join ['\n'] (shift w line :: rows) := by
  cases rows with
  | nil => rw [Text.join, Text.join, List.intercalate_singleton, List.intercalate_singleton]
  | cons row rows =>
      rw [Text.join_cons_cons, Text.join_cons_cons, List.append_assoc, List.append_assoc,
        shift_append (by simp)]

/-! ### Lines that are moved -/

theorem indented_prefix_iff : indented w <+: '\n' :: t ↔ w ≤ indent t := by
  rw [indented, List.cons_prefix_cons, and_iff_right rfl, replicate_prefix_iff]

theorem indented_ne_nil (w : Nat) : indented w ≠ [] :=
  List.cons_ne_nil _ _

theorem not_indented_prefix (h : '\n' ∉ line) (hne : line ≠ []) : ¬ indented w <+: line ++ t := by
  obtain ⟨c, line, rfl⟩ := List.exists_cons_of_ne_nil hne
  rw [indented, List.cons_append, List.cons_prefix_cons]
  rintro ⟨rfl, _⟩
  exact h List.mem_cons_self

/-- A line is left as it is until its end. -/
theorem replaceAll_indented_line (h : '\n' ∉ line) (w : Nat) (t : Text) :
    Text.replaceAll (indented w) ['\n'] (line ++ t) = line ++ Text.replaceAll (indented w) ['\n'] t :=
  Text.replaceAll_append_of_no_start fun _ hu hne => not_indented_prefix (fun hc => h (hu.subset hc)) hne

/-- At the end of a line, the next one is moved. -/
theorem replaceAll_indented_feed (w : Nat) (t : Text) :
    Text.replaceAll (indented w) ['\n'] ('\n' :: t) = '\n' :: Text.replaceAll (indented w) ['\n'] (shift w t) := by
  by_cases h : w ≤ indent t
  · have hmark : '\n' :: t = indented w ++ shift w t := by
      rw [indented, List.cons_append, ← eq_append_shift h]
    rw [hmark, Text.replaceAll_mark_append (indented_ne_nil w), List.singleton_append]
  · rw [Text.replaceAll_cons_kept (mt indented_prefix_iff.mp h), shift_of_lt (Nat.not_le.mp h)]

/-- All lines but the first one are moved. -/
theorem replaceAll_indented_join (w : Nat) (hline : '\n' ∉ line) (hrows : ∀ row ∈ rows, '\n' ∉ row) :
    Text.replaceAll (indented w) ['\n'] (Text.join ['\n'] (line :: rows)) =
      Text.join ['\n'] (line :: rows.map (shift w)) := by
  induction rows generalizing line with
  | nil =>
      have hlast := replaceAll_indented_line hline w []
      rw [Text.replaceAll_nil, List.append_nil] at hlast
      rw [List.map_nil, Text.join, List.intercalate_singleton, hlast]
  | cons row rows ih =>
      obtain ⟨hrow, hrows⟩ := List.forall_mem_cons.mp hrows
      rw [Text.join_cons_cons, List.append_assoc, List.singleton_append, replaceAll_indented_line hline,
        replaceAll_indented_feed, shift_join, ih (fun hc => hrow (mem_of_mem_shift hc)) hrows, List.map_cons,
        Text.join_cons_cons, List.append_assoc, List.singleton_append]

theorem splitOn_replaceAll_indented (w : Nat) (s : Text) :
    (Text.replaceAll (indented w) ['\n'] s).splitOn '\n' =
      (s.splitOn '\n').take 1 ++ ((s.splitOn '\n').drop 1).map (shift w) := by
  obtain ⟨line, rows, hs⟩ := List.exists_cons_of_ne_nil (List.splitOn_ne_nil '\n' s)
  have hone : ∀ row ∈ line :: rows, '\n' ∉ row := fun row hrow => Text.notMem_of_mem_splitOn (hs ▸ hrow)
  obtain ⟨hline, hrows⟩ := List.forall_mem_cons.mp hone
  have hmoved : ∀ row ∈ line :: rows.map (shift w), '\n' ∉ row := by
    refine List.forall_mem_cons.mpr ⟨hline, fun row hrow hc => ?_⟩
    obtain ⟨row, hmem, rfl⟩ := List.mem_map.mp hrow
    exact hrows row hmem (mem_of_mem_shift hc)
  have hjoin : Text.join ['\n'] (line :: rows) = s := hs ▸ List.intercalate_splitOn '\n'
  rw [hs, ← hjoin, replaceAll_indented_join w hline hrows, Text.join,
    List.splitOn_intercalate _ hmoved (List.cons_ne_nil _ _)]
  rfl

/-! ### The width that is removed -/

/-- The widest of the indents that some line after the first one has, or no indent. -/
def width (s : Text) : Nat :=
  (indents.find? fun w => ((s.splitOn '\n').drop 1).any fun line => decide (w ≤ indent line)).getD 0

theorem occurs_indented_line (h : '\n' ∉ line) (w : Nat) (t : Text) :
    Text.occurs (indented w) (line ++ t) = Text.occurs (indented w) t := by
  induction line with
  | nil => rfl
  | cons c line ih =>
      have hnot : (indented w).isPrefixOf (c :: (line ++ t)) = false := by
        rw [Bool.eq_false_iff, ne_eq, List.isPrefixOf_iff_prefix]
        exact not_indented_prefix h (List.cons_ne_nil c line)
      rw [List.cons_append, Text.occurs, hnot, Bool.false_or, ih fun hc => h (List.mem_cons_of_mem c hc)]

theorem occurs_indented_feed (w : Nat) (t : Text) :
    Text.occurs (indented w) ('\n' :: t) = (decide (w ≤ indent t) || Text.occurs (indented w) t) := by
  have hfirst : (indented w).isPrefixOf ('\n' :: t) = decide (w ≤ indent t) := by
    rw [Bool.eq_iff_iff, List.isPrefixOf_iff_prefix, indented_prefix_iff, decide_eq_true_iff]
  rw [Text.occurs, hfirst]

/-- An indent occurs after the beginning of a text if one of its lines has it, the first one apart. -/
theorem occurs_indented_join (w : Nat) (hline : '\n' ∉ line) (hrows : ∀ row ∈ rows, '\n' ∉ row) :
    Text.occurs (indented w) (Text.join ['\n'] (line :: rows)) = rows.any fun row => decide (w ≤ indent row) := by
  induction rows generalizing line with
  | nil =>
      have hlast := occurs_indented_line hline w []
      rw [List.append_nil] at hlast
      rw [Text.join, List.intercalate_singleton, hlast]
      rfl
  | cons row rows ih =>
      obtain ⟨hrow, hrows⟩ := List.forall_mem_cons.mp hrows
      rw [Text.join_cons_cons, List.append_assoc, List.singleton_append, occurs_indented_line hline,
        occurs_indented_feed, indent_join, ih hrow hrows, List.any_cons]

theorem dropIndent_eq (s : Text) : dropIndent s = Text.replaceAll (indented (width s)) ['\n'] s := by
  have hoccurs : (fun w => Text.occurs (indented w) s) =
      fun w => ((s.splitOn '\n').drop 1).any fun line => decide (w ≤ indent line) := by
    funext w
    obtain ⟨line, rows, hs⟩ := List.exists_cons_of_ne_nil (List.splitOn_ne_nil '\n' s)
    have hone : ∀ row ∈ line :: rows, '\n' ∉ row := fun row hrow => Text.notMem_of_mem_splitOn (hs ▸ hrow)
    obtain ⟨hline, hrows⟩ := List.forall_mem_cons.mp hone
    have hjoin : Text.join ['\n'] (line :: rows) = s := hs ▸ List.intercalate_splitOn '\n'
    rw [hs, ← hjoin, occurs_indented_join w hline hrows]
    rfl
  unfold dropIndent width
  rw [hoccurs]
  cases indents.find? fun w => ((s.splitOn '\n').drop 1).any fun line => decide (w ≤ indent line) with
  | none => exact (Text.replaceAll_self (List.cons_ne_nil _ _) s).symm
  | some w => rfl

/-! ### Fenced blocks -/

/-- The lines of an example that is given: without code tags and without white space around it. -/
def givenRows (s : Text) : List Text :=
  (Text.trim (dropCodeTags s)).splitOn '\n'

/-- The lines of an example that are shown between the fences. -/
def shownRows (s : Text) : List Text :=
  ((render s).splitOn '\n').tail.dropLast

/-- Lines with something to see, the first one apart, stay in the order of their indents. -/
def KeepsLayout (given shown : List Text) : Prop :=
  ∀ i j a b a' b', 0 < i → 0 < j → given[i]? = some a → given[j]? = some b → shown[i]? = some a' → shown[j]? = some b' →
    Text.trim a ≠ [] → Text.trim b ≠ [] → indent a ≤ indent b → indent a' ≤ indent b'

theorem language_notMem (code : Text) : '\n' ∉ fence ++ language code := by
  unfold language
  split
  · decide
  · split <;> decide

theorem splitOn_render (s : Text) :
    (render s).splitOn '\n' = (fence ++ language (dropIndent (dropCodeTags s))) ::
      ((Text.trim (dropIndent (dropCodeTags s))).splitOn '\n' ++ [fence]) := by
  have hfence : '\n' ∉ fence := by decide
  unfold render
  simp only [List.append_assoc]
  rw [← List.append_assoc, List.cons_append]
  rw [List.splitOn_append_cons_self_of_not_mem (language_notMem _), List.splitOn_append_cons_self,
    List.splitOn_eq_singleton hfence]

theorem shownRows_eq (s : Text) :
    shownRows s = (givenRows s).take 1 ++ ((givenRows s).drop 1).map (shift (width (dropCodeTags s))) := by
  have hblank : ∀ c ∈ indented (width (dropCodeTags s)), Text.isBlank c = true := by
    intro c hc
    rcases List.mem_cons.mp hc with rfl | hc
    · decide
    · rw [List.eq_of_mem_replicate hc]
      decide
  rw [shownRows, splitOn_render, List.tail_cons, List.dropLast_concat, dropIndent_eq,
    Text.trim_replaceAll (indented_ne_nil _) hblank (List.forall_mem_singleton.mpr (by decide)),
    splitOn_replaceAll_indented, givenRows]

/-- Two lines change their order exactly if only the one that is indented by more has the indent that is removed, and is
not indented by that much more than the other one. -/
theorem keepsLayout_iff (w : Nat) (first : Text) (rest : List Text) :
    KeepsLayout (first :: rest) (first :: rest.map (shift w)) ↔
      ∀ a ∈ rest, ∀ b ∈ rest, Text.trim a ≠ [] → Text.trim b ≠ [] →
        indent a < w → w ≤ indent b → indent a ≤ indent b - w := by
  constructor
  · intro h a ha b hb hat hbt haw hbw
    obtain ⟨i, hi⟩ := List.getElem?_of_mem ha
    obtain ⟨j, hj⟩ := List.getElem?_of_mem hb
    have hle := h (i + 1) (j + 1) a b (shift w a) (shift w b) (Nat.succ_pos i) (Nat.succ_pos j) hi hj
      (by rw [List.getElem?_cons_succ, List.getElem?_map, hi, Option.map_some])
      (by rw [List.getElem?_cons_succ, List.getElem?_map, hj, Option.map_some]) hat hbt (by omega)
    rwa [indent_shift, if_neg (by omega), indent_shift, if_pos hbw] at hle
  · intro h i j a b a' b' hi hj ha hb ha' hb' hat hbt hle
    obtain ⟨i, rfl⟩ := Nat.exists_eq_succ_of_ne_zero (Nat.pos_iff_ne_zero.mp hi)
    obtain ⟨j, rfl⟩ := Nat.exists_eq_succ_of_ne_zero (Nat.pos_iff_ne_zero.mp hj)
    rw [Nat.succ_eq_add_one, List.getElem?_cons_succ] at ha hb ha' hb'
    rw [List.getElem?_map, ha, Option.map_some, Option.some_inj] at ha'
    rw [List.getElem?_map, hb, Option.map_some, Option.some_inj] at hb'
    have hpair := h a (List.mem_of_getElem? ha) b (List.mem_of_getElem? hb) hat hbt
    rw [← ha', ← hb', indent_shift, indent_shift]
    split <;> split <;> omega

/-- **What becomes of the lines of an example.**  Its lines, without code tags and white space around them, are shown
between two fences, and nothing but spaces at their beginnings is removed: from each line but the first one the widest
indent that some line has, if that line has it too.  The layout is kept exactly if no line without this indent stands to
the right of where a line with it is moved. -/
theorem render_rows (s : Text) :
    (render s).splitOn '\n' =
      (fence ++ language (dropIndent (dropCodeTags s))) :: (shownRows s ++ [fence]) ∧
    List.Forall₂ (fun given shown => shown.dropWhile isSpace = given.dropWhile isSpace) (givenRows s) (shownRows s) ∧
    shownRows s = (givenRows s).take 1 ++ ((givenRows s).drop 1).map (shift (width (dropCodeTags s))) ∧
    (KeepsLayout (givenRows s) (shownRows s) ↔
      ∀ a ∈ (givenRows s).drop 1, ∀ b ∈ (givenRows s).drop 1, Text.trim a ≠ [] → Text.trim b ≠ [] →
        indent a < width (dropCodeTags s) → width (dropCodeTags s) ≤ indent b →
          indent a ≤ indent b - width (dropCodeTags s)) := by
  have hfences : (render s).splitOn '\n' =
      (fence ++ language (dropIndent (dropCodeTags s))) :: (shownRows s ++ [fence]) := by
    rw [shownRows, splitOn_render, List.tail_cons, List.dropLast_concat]
  obtain ⟨first, rest, hgiven⟩ : ∃ first rest, givenRows s = first :: rest :=
    List.exists_cons_of_ne_nil (List.splitOn_ne_nil '\n' (Text.trim (dropCodeTags s)))
  have hshown : shownRows s = first :: rest.map (shift (width (dropCodeTags s))) := by
    rw [shownRows_eq, hgiven]
    rfl
  have hspaces : List.Forall₂ (fun given shown => shown.dropWhile isSpace = given.dropWhile isSpace)
      rest (rest.map (shift (width (dropCodeTags s)))) := by
    rw [List.forall₂_map_right_iff, List.forall₂_same]
    exact fun line _ => dropWhile_shift _ line
  refine ⟨hfences, ?_, shownRows_eq s, ?_⟩
  · rw [hgiven, hshown]
    exact .cons rfl hspaces
  · rw [hgiven, hshown]
    exact keepsLayout_iff (width (dropCodeTags s)) first rest

/-- A block of code in which each level is indented by four spaces. -/
def nestedBlock : Text :=
  "if ($a) \x7b\n        run();\n    \x7d"

/-- The inner line is moved to the left of the line that closes the block. -/
theorem nested_block_misaligned :
    render nestedBlock = "```\nif ($a) \x7b\n run();\n    \x7d\n```".toList ∧
    ¬ KeepsLayout (givenRows nestedBlock) (shownRows nestedBlock) := by
  refine ⟨by decide +kernel, fun h => ?_⟩
  have hle := h 2 1 "    \x7d" "        run();" "    \x7d" " run();" (by decide) (by decide) (by decide +kernel)
    (by decide +kernel) (by decide +kernel) (by decide +kernel) (by decide +kernel) (by decide +kernel) (by decide)
  exact absurd hle (by decide)

end Example

end ApiPages
