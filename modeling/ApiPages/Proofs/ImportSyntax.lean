import ApiPages.Proofs.ImportPath

/-! # Three ways to write imports

Classes below one path (`Base`) can be imported by a group, by a list in one statement, and by a statement for each of
them (`grouped`, `listed`, `separate`).  All three give the same imports, however much white space stands around the
words (`syntaxes_agree`).

The keyword of a statement is the only one in it, because no item is called `use` and a path has a backslash in it
(`Item.noUse_write`); so each text is one statement, or one for each item (`ofSource_statement`).  An item is read by its
words, which white space does not change (`Item.words_write`). -/

namespace ApiPages

namespace Import

/-! ### The parts of a statement -/

/-- ASCII white space, possibly none. -/
structure Gap where
  text : Text
  blank : ∀ c ∈ text, Text.isAsciiBlank c = true

/-- ASCII white space between two words. -/
structure Space extends Gap where
  ne_nil : text ≠ []

/-- The characters of the segments of a class name. -/
def isSegmentChar (c : Char) : Bool :=
  c.isAlphanum || c == '_'

/-- A word of segment characters. -/
structure IsSegment (s : Text) : Prop where
  ne_nil : s ≠ []
  spelled : ∀ c ∈ s, isSegmentChar c = true

instance : DecidablePred IsSegment :=
  fun s => decidable_of_iff (s ≠ [] ∧ s.all isSegmentChar = true)
    ⟨fun ⟨hne, hall⟩ => ⟨hne, List.all_eq_true.mp hall⟩, fun h => ⟨h.ne_nil, List.all_eq_true.mpr h.spelled⟩⟩

/-- A class name without a leading backslash. -/
structure Name where
  segments : List Text
  ne_nil : segments ≠ []
  isSegment : ∀ segment ∈ segments, IsSegment segment

def Name.text (n : Name) : Text :=
  Text.join ['\\'] n.segments

/-- The path below which classes are imported, with or without a leading backslash. -/
structure Base where
  rooted : Bool
  name : Name

def Base.text (b : Base) : Text :=
  (if b.rooted then ['\\'] else []) ++ b.name.text

/-- What stands before the name of a class below the path. -/
def Base.lead (b : Base) : Text :=
  b.text ++ ['\\']

/-- The words that mean something else than a class where an item is expected. -/
def reserved : List Text :=
  ["use", "function", "const"]

/-- A class and the name that is given to it, if any. -/
structure Item where
  name : Name
  aliasName : Option Text
  isSegment : ∀ a ∈ aliasName, IsSegment a
  unreserved : ∀ word ∈ name.text :: aliasName.toList, ∀ keyword ∈ reserved, Text.sameLetters word keyword = false

/-- The import of an item below a path. -/
def Item.below (b : Base) (i : Item) : Import :=
  ⟨'\\' :: (b.name.text ++ '\\' :: i.name.text), i.aliasName⟩

/-! ### The three ways -/

/-- The white space around the words of an item. -/
structure ItemGaps where
  before : Gap
  beforeAs : Space
  afterAs : Space
  after : Gap

/-- The text of an alias, with the word before it. -/
def Item.writeAlias (gaps : ItemGaps) (i : Item) : Text :=
  i.aliasName.elim [] fun a => gaps.beforeAs.text ++ "as".toList ++ gaps.afterAs.text ++ a

/-- The text of an item, with `lead` right before its name. -/
def Item.write (lead : Text) (gaps : ItemGaps) (i : Item) : Text :=
  gaps.before.text ++ (lead ++ i.name.text) ++ i.writeAlias gaps ++ gaps.after.text

/-- The white space before and after the keyword of a statement. -/
structure Opening where
  before : Gap
  after : Space

/-- A statement with its keyword and its semicolon. -/
def Opening.statement (o : Opening) (body : Text) : Text :=
  o.before.text ++ "use".toList ++ o.after.text ++ body ++ [';']

/-- The white space of a group.  There is a comma after the last item if white space is given for behind it. -/
structure GroupGaps where
  opening : Opening
  beforeBrace : Gap
  afterComma : Option Gap
  afterBrace : Gap

/-- The texts between the commas of a group. -/
def pieces (gaps : GroupGaps) (rows : List (ItemGaps × Item)) : List Text :=
  rows.map (fun row => row.2.write [] row.1) ++ gaps.afterComma.toList.map Gap.text

/-- A path and the items below it between braces. -/
def braced (b : Base) (gaps : GroupGaps) (rows : List (ItemGaps × Item)) : Text :=
  b.lead ++ gaps.beforeBrace.text ++ '{' :: (Text.join [','] (pieces gaps rows) ++ ['}'])

/-- One statement with the items between braces. -/
def grouped (b : Base) (gaps : GroupGaps) (rows : List (ItemGaps × Item)) : Text :=
  gaps.opening.statement (braced b gaps rows ++ gaps.afterBrace.text)

/-- One statement with the items in full. -/
def listed (b : Base) (o : Opening) (rows : List (ItemGaps × Item)) : Text :=
  o.statement (Text.join [','] (rows.map fun row => row.2.write b.lead row.1))

/-- One statement for each item. -/
def separate (b : Base) (rows : List (Opening × ItemGaps × Item)) : Text :=
  rows.flatMap fun row => listed b row.1 [row.2]

/-! ### Characters -/

variable {c : Char} {s lead body : Text} {i : Item} {gaps : ItemGaps}

theorem isBlank_of_isAsciiBlank (h : Text.isAsciiBlank c = true) : Text.isBlank c = true := by
  simp only [Text.isAsciiBlank, Bool.or_eq_true, beq_iff_eq] at h
  rcases h with (((rfl | rfl) | rfl) | rfl) | rfl <;> decide

theorem notMem_of_isPath (hs : isPath s = true) (h : isIdentifierChar c = false) : c ∉ s := by
  intro hc
  rw [isIdentifierChar_of_isPath hs _ hc] at h
  cases h

theorem IsSegment.isPath (h : IsSegment s) : isPath s = true := by
  refine isPath_iff.mpr fun c hc => ?_
  rcases Bool.or_eq_true_iff.mp (h.spelled c hc) with hc | hc
  · exact .inl hc
  · exact .inr (.inl (beq_iff_eq.mp hc))

theorem IsSegment.isOuter (h : IsSegment s) (hc : c ∈ s) : ClassName.isOuter c = false := by
  have hblank := isBlank_of_isPath h.isPath c hc
  rw [ClassName.isOuter, hblank, Bool.or_false, beq_eq_false_iff_ne]
  rintro rfl
  cases h.spelled _ hc

namespace Gap

variable (g : Gap)

theorem isBlank : ∀ c ∈ g.text, Text.isBlank c = true :=
  fun c hc => isBlank_of_isAsciiBlank (g.blank c hc)

theorem notMem (h : Text.isAsciiBlank c = false) : c ∉ g.text := by
  intro hc
  rw [g.blank c hc] at h
  cases h

theorem noUse_append (s : Text) : NoUse (g.text ++ s) ↔ NoUse s := by
  obtain ⟨blanks, hblanks⟩ := g
  induction blanks with
  | nil => rfl
  | cons c blanks ih =>
      obtain ⟨hc, hrest⟩ := List.forall_mem_cons.mp hblanks
      exact (noUse_cons (isIdentifierChar_of_isAsciiBlank hc)).trans (ih hrest)

theorem noUse : NoUse g.text := by
  have h := (g.noUse_append []).mpr noUse_nil
  rwa [List.append_nil] at h

theorem append_noUse (h : NoUse s) : NoUse (s ++ g.text) := by
  cases hg : g.text with
  | nil => rwa [List.append_nil]
  | cons c rest =>
      have hc := isIdentifierChar_of_isAsciiBlank (g.blank c (hg ▸ List.mem_cons_self))
      have hall := g.noUse
      rw [hg, noUse_cons hc] at hall
      exact (noUse_append_cons hc).mpr ⟨h, hall⟩

theorem useChunks_append (s : Text) : useChunks (g.text ++ s) = useChunks s := by
  obtain ⟨blanks, hblanks⟩ := g
  induction blanks with
  | nil => rfl
  | cons c blanks ih =>
      obtain ⟨hc, hrest⟩ := List.forall_mem_cons.mp hblanks
      exact (useChunks_cons (isIdentifierChar_of_isAsciiBlank hc) _).trans (ih hrest)

end Gap

theorem Space.noUse_append_append (g : Space) (hs : NoUse s) (hbody : NoUse body) :
    NoUse (s ++ g.text ++ body) := by
  obtain ⟨c, rest, hg⟩ := List.exists_cons_of_ne_nil g.ne_nil
  have hc := isIdentifierChar_of_isAsciiBlank (g.blank c (hg ▸ List.mem_cons_self))
  have hrest : NoUse (g.text ++ body) := (g.noUse_append body).mpr hbody
  rw [hg, List.cons_append, noUse_cons hc] at hrest
  rw [hg, List.append_assoc, List.cons_append]
  exact (noUse_append_cons hc).mpr ⟨hs, hrest⟩

/-! ### Names and paths -/

namespace Name

variable (n : Name)

theorem isPath_text : isPath n.text = true := by
  rw [isPath, List.all_eq_true]
  intro c hc
  rcases Text.mem_of_mem_join hc with hc | ⟨segment, hsegment, hc⟩
  · rw [List.mem_singleton.mp hc]
    decide
  · exact List.all_eq_true.mp (n.isSegment segment hsegment).isPath c hc

theorem stripped_text : Text.Stripped ClassName.isOuter n.text :=
  Text.stripped_join fun segment hsegment =>
    have h := n.isSegment segment hsegment
    ⟨h.ne_nil, fun _ hc => h.isOuter (List.mem_of_mem_head? hc), fun _ hc => h.isOuter (List.mem_of_getLast? hc)⟩

theorem text_ne_nil : n.text ≠ [] := by
  obtain ⟨segment, segments, hs⟩ := List.exists_cons_of_ne_nil n.ne_nil
  have hsegment := n.isSegment segment (hs ▸ List.mem_cons_self)
  obtain ⟨c, rest, hc⟩ := List.exists_cons_of_ne_nil hsegment.ne_nil
  have hmem : c ∈ n.text := Text.mem_join_of_mem _ (hs ▸ List.mem_cons_self) (hc ▸ List.mem_cons_self)
  exact List.ne_nil_of_mem hmem

end Name

theorem Base.isPath_lead (b : Base) : isPath b.lead = true := by
  rw [lead, text, isPath_append, isPath_append]
  refine ⟨⟨?_, b.name.isPath_text⟩, by decide⟩
  split <;> decide

/-- A path and a name below it are shown with one leading backslash. -/
theorem Base.display_append (b : Base) (n : Name) :
    ClassName.display (b.lead ++ n.text) = '\\' :: (b.name.text ++ '\\' :: n.text) := by
  have hstripped : Text.Stripped ClassName.isOuter (b.name.text ++ '\\' :: n.text) := by
    constructor
    · intro c hc
      rw [Option.mem_def, List.head?_append_of_ne_nil _ b.name.text_ne_nil] at hc
      exact b.name.stripped_text.head c hc
    · intro c hc
      rw [Option.mem_def, List.getLast?_append_of_ne_nil _ (List.cons_ne_nil _ _), List.getLast?_cons,
        List.getLast?_eq_some_getLast n.text_ne_nil, Option.getD_some] at hc
      exact n.stripped_text.last c ((List.getLast?_eq_some_getLast n.text_ne_nil).trans hc)
  rw [lead, text, List.append_assoc, List.append_assoc, List.singleton_append, ClassName.display]
  split
  · rw [List.singleton_append, Text.strip_cons_of_pos (by decide), hstripped.strip_eq]
  · rw [List.nil_append, hstripped.strip_eq]

/-! ### One item -/

namespace Item

theorem ne_use (h : i.aliasName = some s) : s ≠ "use".toList := by
  rintro rfl
  have hunreserved := i.unreserved "use" (by simp [h]) "use" (by decide)
  cases hunreserved

theorem exists_write_eq (lead : Text) (gaps : ItemGaps) (i : Item) :
    ∃ rest, i.write lead gaps = gaps.before.text ++ (lead ++ rest) :=
  ⟨i.name.text ++ (i.writeAlias gaps ++ gaps.after.text), by simp only [write, List.append_assoc]⟩

theorem words_write (hlead : isPath lead = true) (gaps : ItemGaps) (i : Item) :
    Text.words (i.write lead gaps) =
      (lead ++ i.name.text) :: i.aliasName.elim [] fun a => ["as".toList, a] := by
  have hpath : isPath (lead ++ i.name.text) = true := isPath_append.mpr ⟨hlead, i.name.isPath_text⟩
  have hname : Text.words (lead ++ i.name.text) = [lead ++ i.name.text] :=
    Text.words_eq_singleton (isBlank_of_isPath hpath) (by simp [i.name.text_ne_nil])
  rw [write, writeAlias, Text.words_append_blank gaps.after.isBlank, List.append_assoc,
    Text.words_blank_append gaps.before.isBlank]
  cases halias : i.aliasName with
  | none => rw [Option.elim_none, List.append_nil, hname, Option.elim_none]
  | some a =>
      have ha := i.isSegment a halias
      have hword : Text.words a = [a] := Text.words_eq_singleton (isBlank_of_isPath ha.isPath) ha.ne_nil
      have has : Text.words "as" = ["as".toList] := by decide
      rw [Option.elim_some, Option.elim_some, ← List.append_assoc, ← List.append_assoc,
        Text.words_append_blank_append gaps.afterAs.isBlank gaps.afterAs.ne_nil, ← List.append_assoc,
        Text.words_append_blank_append gaps.beforeAs.isBlank gaps.beforeAs.ne_nil, hname, has, hword]
      rfl

theorem ofItem?_write (hlead : isPath lead = true) (gaps : ItemGaps) (i : Item) :
    ofItem? (i.write lead gaps) = some ⟨ClassName.display (lead ++ i.name.text), i.aliasName⟩ := by
  have hpath : isPath (lead ++ i.name.text) = true := isPath_append.mpr ⟨hlead, i.name.isPath_text⟩
  rw [ofItem?, words_write hlead]
  cases halias : i.aliasName with
  | none => simp [hpath]
  | some a =>
      have ha : a.all isIdentifierChar = true :=
        List.all_eq_true.mpr (isIdentifierChar_of_isPath (i.isSegment a halias).isPath)
      have has : Text.sameLetters "as" "as" = true := by decide
      exact if_pos (by rw [has, hpath, ha]; rfl)

theorem noUse_write (hlead : isPath lead = true) (hne : lead ++ i.name.text ≠ "use".toList) (gaps : ItemGaps) :
    NoUse (i.write lead gaps) := by
  have hpath : isPath (lead ++ i.name.text) = true := isPath_append.mpr ⟨hlead, i.name.isPath_text⟩
  have hname : NoUse (lead ++ i.name.text) :=
    noUse_of_identifier (isIdentifierChar_of_isPath hpath) hne
  rw [write, writeAlias, List.append_assoc gaps.before.text]
  refine gaps.after.append_noUse ((gaps.before.noUse_append _).mpr ?_)
  cases halias : i.aliasName with
  | none => rwa [Option.elim_none, List.append_nil]
  | some a =>
      have ha : NoUse a :=
        noUse_of_identifier (isIdentifierChar_of_isPath (i.isSegment a halias).isPath) (ne_use halias)
      have has : NoUse "as" := noUse_of_identifier (List.all_eq_true.mp (by decide)) (by decide)
      rw [Option.elim_some, ← List.append_assoc, ← List.append_assoc, ← List.append_assoc]
      exact gaps.afterAs.noUse_append_append (gaps.beforeAs.noUse_append_append hname has) ha

/-- An item has neither commas nor semicolons nor braces in it. -/
theorem notMem_write (hlead : isPath lead = true) (hid : isIdentifierChar c = false)
    (hblank : Text.isAsciiBlank c = false) : c ∉ i.write lead gaps := by
  have hgap (g : Gap) : c ∉ g.text := g.notMem hblank
  have halias : c ∉ i.writeAlias gaps := by
    unfold writeAlias
    cases ha : i.aliasName with
    | none => exact List.not_mem_nil
    | some a =>
        simp only [Option.elim_some, List.mem_append, not_or]
        exact ⟨⟨⟨hgap _, notMem_of_isPath (by decide) hid⟩, hgap _⟩, notMem_of_isPath (i.isSegment a ha).isPath hid⟩
  simp only [write, List.mem_append, not_or]
  exact ⟨⟨⟨hgap _, notMem_of_isPath hlead hid, notMem_of_isPath i.name.isPath_text hid⟩, halias⟩, hgap _⟩

end Item

/-! ### One statement -/

/-- A statement is read up to its semicolon if there is no other keyword in it. -/
theorem ofSource_statement (o : Opening) (hsemicolon : ';' ∉ body) (huse : NoUse body) :
    ofSource (o.statement body) = ofStatement (Text.trim body) := by
  obtain ⟨next, rest, hafter⟩ := List.exists_cons_of_ne_nil o.after.ne_nil
  have hnext : Text.isAsciiBlank next = true := o.after.blank next (hafter ▸ List.mem_cons_self)
  have htext : o.statement body = o.before.text ++ ("use".toList ++ next :: (rest ++ body ++ [';'])) := by
    simp [Opening.statement, hafter]
  have hrest : NoUse (rest ++ body ++ [';']) := by
    have hall : NoUse (o.after.text ++ (body ++ [';'])) :=
      (o.after.noUse_append _).mpr ((noUse_append_cons (by decide)).mpr ⟨huse, noUse_nil⟩)
    rwa [hafter, List.cons_append, noUse_cons (isIdentifierChar_of_isAsciiBlank hnext), ← List.append_assoc] at hall
  have hbody : upToSemicolon (next :: (rest ++ body ++ [';'])) = o.after.text ++ body := by
    have hnot : ';' ∉ o.after.text ++ body := by
      rw [List.mem_append, not_or]
      exact ⟨o.after.notMem (by decide), hsemicolon⟩
    have hcut := upToSemicolon_append hnot []
    rwa [hafter] at hcut ⊢
  have hstatements : statements (o.statement body) = [Text.trim body] := by
    rw [htext, statements, o.before.useChunks_append, ← statements, statements_use hnext hrest, hbody, Text.trim,
      Text.strip_forall_append o.after.isBlank, ← Text.trim]
  rw [ofSource_eq_flatMap, hstatements, List.flatMap_singleton]

theorem noUse_join {pieces : List Text} (h : ∀ piece ∈ pieces, NoUse piece) : NoUse (Text.join [','] pieces) := by
  induction pieces with
  | nil => exact noUse_nil
  | cons piece pieces ih =>
      obtain ⟨hpiece, hpieces⟩ := List.forall_mem_cons.mp h
      cases pieces with
      | nil => rwa [Text.join, List.intercalate_singleton]
      | cons piece' pieces =>
          rw [Text.join_cons_cons, List.append_assoc, List.singleton_append]
          exact (noUse_append_cons (by decide)).mpr ⟨hpiece, ih hpieces⟩

theorem notMem_join {pieces : List Text} (hcomma : c ≠ ',') (h : ∀ piece ∈ pieces, c ∉ piece) :
    c ∉ Text.join [','] pieces := by
  intro hc
  rcases Text.mem_of_mem_join hc with hc | ⟨piece, hpiece, hc⟩
  · exact hcomma (List.mem_singleton.mp hc)
  · exact h piece hpiece hc

/-- The items that stand between commas are read one by one. -/
theorem filterMap_splitOn_join {f : Text → Option Import} (hf : f [] = none) {pieces : List Text}
    (h : ∀ piece ∈ pieces, ',' ∉ piece) :
    ((Text.join [','] pieces).splitOn ',').filterMap f = pieces.filterMap f := by
  by_cases hne : pieces = []
  · subst hne
    exact List.filterMap_cons_none hf
  · have hplain : ∀ piece ∈ pieces, ∀ c ∈ piece, (c == ',') = false := by
      intro piece hpiece c hc
      rw [beq_eq_false_iff_ne]
      rintro rfl
      exact h piece hpiece hc
    rw [List.splitOn_eq_splitOnP, Text.splitOnP_join (by decide) hne hplain]

theorem ofItem?_congr {t : Text} (h : Text.words s = Text.words t) : ofItem? s = ofItem? t := by
  rw [ofItem?, ofItem?, h]

theorem skipsClasses_congr {t : Text} (h : Text.words s = Text.words t) : skipsClasses s = skipsClasses t := by
  rw [skipsClasses, skipsClasses, h]

/-- A statement that begins with a path imports classes. -/
theorem skipsClasses_of_isPath (h : isPath s = true) (hslash : '\\' ∈ s) (rest : Text) :
    skipsClasses (s ++ rest) = false := by
  obtain ⟨more, words, hwords⟩ := Text.exists_words_append
    (isBlank_of_isPath h) (List.ne_nil_of_mem hslash) rest
  have hkeyword (keyword : Text) (hkeyword : '\\' ∉ Text.lower keyword) :
      Text.sameLetters (s ++ more) keyword = false := by
    rw [Text.sameLetters, beq_eq_false_iff_ne]
    intro heq
    refine hkeyword ?_
    rw [← heq]
    exact List.mem_map.mpr ⟨'\\', List.mem_append_left _ hslash, by decide⟩
  rw [skipsClasses, hwords]
  simp only [hkeyword "function" (by decide), hkeyword "const" (by decide), Bool.or_self]

theorem Base.backslash_mem_lead (b : Base) : '\\' ∈ b.lead :=
  List.mem_append_right _ (List.mem_singleton_self _)

/-! ### Lists -/

section Listed

variable (b : Base) (rows : List (ItemGaps × Item))

theorem noUse_listed : NoUse (Text.join [','] (rows.map fun row => row.2.write b.lead row.1)) := by
  refine noUse_join (List.forall_mem_map.mpr fun row _ => Item.noUse_write b.isPath_lead (fun heq => ?_) row.1)
  have hmem : '\\' ∈ "use".toList := heq ▸ List.mem_append_left _ b.backslash_mem_lead
  exact absurd hmem (by decide)

theorem skipsClasses_listed : skipsClasses (Text.join [','] (rows.map fun row => row.2.write b.lead row.1)) = false := by
  cases rows with
  | nil => rfl
  | cons row rows =>
      obtain ⟨more, hmore⟩ := Text.exists_join_cons [','] (row.2.write b.lead row.1)
        (rows.map fun row => row.2.write b.lead row.1)
      obtain ⟨rest, hrest⟩ := row.2.exists_write_eq b.lead row.1
      rw [List.map_cons, hmore, hrest, List.append_assoc, List.append_assoc,
        skipsClasses_congr (Text.words_blank_append row.1.before.isBlank _)]
      exact skipsClasses_of_isPath b.isPath_lead b.backslash_mem_lead _

/-- Trimming a statement keeps the items that are read from it. -/
theorem filterMap_ofItem?_trim (s : Text) :
    ((Text.trim s).splitOn ',').filterMap ofItem? = (s.splitOn ',').filterMap ofItem? := by
  have hcongr (l l' : List Text) (h : l.map Text.words = l'.map Text.words) :
      l.filterMap ofItem? = l'.filterMap ofItem? := by
    induction l generalizing l' with
    | nil =>
        rw [List.map_nil, eq_comm, List.map_eq_nil_iff] at h
        rw [h]
    | cons item l ih =>
        obtain ⟨item', rest, rfl, hitem, hrest⟩ := List.map_eq_cons_iff.mp h.symm
        rw [List.filterMap_cons, List.filterMap_cons, ofItem?_congr hitem.symm, ih rest hrest.symm]
  refine hcongr _ _ (Text.map_splitOnP_strip (fun _ => Text.words_cons) (fun _ => Text.words_concat) (fun c hc => ?_) s)
  rw [beq_eq_false_iff_ne]
  rintro rfl
  cases hc

theorem ofSource_listed (o : Opening) : ofSource (listed b o rows) = rows.map fun row => row.2.below b := by
  have hplain (c : Char) (hid : isIdentifierChar c = false) (hblank : Text.isAsciiBlank c = false) :
      ∀ piece ∈ rows.map fun row => row.2.write b.lead row.1, c ∉ piece :=
    List.forall_mem_map.mpr fun row _ => Item.notMem_write b.isPath_lead hid hblank
  have hbrace : '{' ∉ Text.trim (Text.join [','] (rows.map fun row => row.2.write b.lead row.1)) := fun hc =>
    notMem_join (by decide) (hplain '{' (by decide) (by decide)) (Text.mem_of_mem_strip hc)
  rw [listed, ofSource_statement o (notMem_join (by decide) (hplain ';' (by decide) (by decide))) (noUse_listed b rows),
    ofStatement, skipsClasses_congr (Text.words_trim _), skipsClasses_listed, Text.cutFirst?_eq_none hbrace]
  simp only [Bool.false_eq_true, if_false]
  have hread : (ofItem? ∘ fun row : ItemGaps × Item => row.2.write b.lead row.1) = some ∘ fun row => row.2.below b := by
    funext row
    rw [Function.comp_apply, Item.ofItem?_write b.isPath_lead, b.display_append]
    rfl
  rw [filterMap_ofItem?_trim, filterMap_splitOn_join rfl (hplain ',' (by decide) (by decide)), List.filterMap_map,
    hread, List.filterMap_eq_map]

end Listed

/-! ### Groups -/

theorem Base.text_append_cons (b : Base) (s : Text) : b.text ++ '\\' :: s = b.lead ++ s := by
  rw [lead, List.append_assoc, List.singleton_append]

/-- The path of a group is what stands before its brace, without white space and the last backslash. -/
theorem Base.groupPath_eq (b : Base) (g : Gap) : groupPath (b.lead ++ g.text) = b.text := by
  have htrim : Text.trim (b.lead ++ g.text) = b.lead := by
    rw [Text.trim, Text.strip_append_of_forall g.isBlank]
    exact Text.trim_eq_self (isBlank_of_isPath b.isPath_lead)
  have hlast : ∀ c ∈ b.text.getLast?, ClassName.isBackslash c = false := by
    intro c hc
    rw [text, Option.mem_def, List.getLast?_append_of_ne_nil _ b.name.text_ne_nil] at hc
    exact (Bool.or_eq_false_iff.mp (b.name.stripped_text.last c hc)).1
  rw [groupPath, htrim, lead, Text.dropEndWhile_append_of_forall (List.forall_mem_singleton.mpr rfl),
    Text.dropEndWhile_eq_self hlast]

/-- What a group makes of a text between two commas. -/
def inGroup (group item : Text) : Option Import :=
  if skipsClasses item then none else (ofItem? item).map (under group)

theorem Item.inGroup_write (b : Base) (gaps : ItemGaps) (i : Item) :
    inGroup b.text (i.write [] gaps) = some (i.below b) := by
  have hskips : skipsClasses (i.write [] gaps) = false := by
    have hfunction := i.unreserved i.name.text List.mem_cons_self "function" (by decide)
    have hconst := i.unreserved i.name.text List.mem_cons_self "const" (by decide)
    rw [skipsClasses, words_write rfl, List.nil_append]
    simp only [hfunction, hconst, Bool.or_self]
  have hname : (ClassName.display i.name.text).dropWhile ClassName.isBackslash = i.name.text := by
    rw [ClassName.display, i.name.stripped_text.strip_eq, List.dropWhile_cons_of_pos (by decide)]
    exact Text.dropWhile_eq_self fun c hc => (Bool.or_eq_false_iff.mp (i.name.stripped_text.head c hc)).1
  rw [inGroup, hskips, if_neg Bool.false_ne_true, ofItem?_write rfl, List.nil_append, Option.map_some, under, hname,
    b.text_append_cons, b.display_append]
  rfl

theorem Gap.inGroup_text (g : Gap) (group : Text) : inGroup group g.text = none := by
  have hwords := Text.words_eq_nil g.isBlank
  rw [inGroup, skipsClasses, ofItem?, hwords]
  rfl

section Grouped

variable (b : Base) (gaps : GroupGaps) (rows : List (ItemGaps × Item))

theorem filterMap_inGroup_pieces :
    (pieces gaps rows).filterMap (inGroup b.text) = rows.map fun row => row.2.below b := by
  have hread : (inGroup b.text ∘ fun row : ItemGaps × Item => row.2.write [] row.1) =
      some ∘ fun row => row.2.below b := by
    funext row
    exact row.2.inGroup_write b row.1
  have hgap : (gaps.afterComma.toList.map Gap.text).filterMap (inGroup b.text) = [] := by
    rw [List.filterMap_eq_nil_iff, List.forall_mem_map]
    exact fun g _ => g.inGroup_text b.text
  rw [pieces, List.filterMap_append, hgap, List.append_nil, List.filterMap_map, hread, List.filterMap_eq_map]

theorem noUse_of_mem_pieces : ∀ piece ∈ pieces gaps rows, NoUse piece := by
  refine List.forall_mem_append.mpr ⟨List.forall_mem_map.mpr fun row _ => ?_, List.forall_mem_map.mpr fun g _ => g.noUse⟩
  refine Item.noUse_write rfl (fun heq => ?_) row.1
  have huse := row.2.unreserved row.2.name.text List.mem_cons_self "use" (by decide)
  rw [List.nil_append] at heq
  rw [heq] at huse
  cases huse

theorem notMem_of_mem_pieces {c : Char} (hid : isIdentifierChar c = false) (hblank : Text.isAsciiBlank c = false) :
    ∀ piece ∈ pieces gaps rows, c ∉ piece := by
  rw [pieces, List.forall_mem_append, List.forall_mem_map, List.forall_mem_map]
  exact ⟨fun row _ => Item.notMem_write rfl hid hblank, fun g _ => g.notMem hblank⟩

theorem notMem_braced {c : Char} (hid : isIdentifierChar c = false) (hblank : Text.isAsciiBlank c = false)
    (hmarks : c ∉ ['{', '}', ',']) : c ∉ braced b gaps rows := by
  have hgap : c ∉ gaps.beforeBrace.text := gaps.beforeBrace.notMem hblank
  have hpath : c ∉ b.lead := notMem_of_isPath b.isPath_lead hid
  obtain ⟨hopen, hclose, hcomma⟩ : c ≠ '{' ∧ c ≠ '}' ∧ c ≠ ',' := by simpa using hmarks
  simp [braced, hpath, hgap, hopen, hclose, notMem_join hcomma (notMem_of_mem_pieces gaps rows hid hblank)]

theorem noUse_braced : NoUse (braced b gaps rows) := by
  have hlead : NoUse b.lead := by
    refine noUse_of_identifier (isIdentifierChar_of_isPath b.isPath_lead) fun heq => ?_
    exact absurd (heq ▸ b.backslash_mem_lead) (by decide)
  rw [braced, noUse_append_cons (by decide), noUse_append_cons (by decide)]
  exact ⟨gaps.beforeBrace.append_noUse hlead, noUse_join (noUse_of_mem_pieces gaps rows), noUse_nil⟩

theorem stripped_braced : Text.Stripped Text.isBlank (braced b gaps rows) where
  head c hc := by
    rw [braced, List.append_assoc, Option.mem_def,
      List.head?_append_of_ne_nil _ (List.ne_nil_of_mem b.backslash_mem_lead)] at hc
    exact isBlank_of_isPath b.isPath_lead c (List.mem_of_mem_head? hc)
  last c hc := by
    rw [braced, ← List.cons_append, ← List.append_assoc, Option.mem_def, List.getLast?_concat] at hc
    cases hc
    decide

theorem ofStatement_braced : ofStatement (braced b gaps rows) = rows.map fun row => row.2.below b := by
  have hbrace : '{' ∉ b.lead ++ gaps.beforeBrace.text := by
    rw [List.mem_append, not_or]
    exact ⟨notMem_of_isPath b.isPath_lead (by decide), gaps.beforeBrace.notMem (by decide)⟩
  have hskips : skipsClasses (braced b gaps rows) = false := by
    rw [braced, List.append_assoc]
    exact skipsClasses_of_isPath b.isPath_lead b.backslash_mem_lead _
  have hread (items : List Text) : ((items.filter fun item => !skipsClasses item).filterMap fun item =>
      (ofItem? item).map (under b.text)) = items.filterMap (inGroup b.text) := by
    rw [List.filterMap_filter]
    refine List.filterMap_congr fun item _ => ?_
    cases hitem : skipsClasses item <;> simp [inGroup, hitem]
  rw [ofStatement, hskips, if_neg Bool.false_ne_true, braced, Text.cutFirst?_append_cons hbrace]
  simp only [groupBody?, Text.cutLast?_append_cons List.not_mem_nil, b.groupPath_eq, hread]
  rw [filterMap_splitOn_join rfl (notMem_of_mem_pieces gaps rows (by decide) (by decide)),
    filterMap_inGroup_pieces]

theorem ofSource_grouped : ofSource (grouped b gaps rows) = rows.map fun row => row.2.below b := by
  have hsemicolon : ';' ∉ braced b gaps rows ++ gaps.afterBrace.text := by
    rw [List.mem_append, not_or]
    exact ⟨notMem_braced b gaps rows (by decide) (by decide) (by decide), gaps.afterBrace.notMem (by decide)⟩
  rw [grouped, ofSource_statement gaps.opening hsemicolon (gaps.afterBrace.append_noUse (noUse_braced b gaps rows)),
    Text.trim, Text.strip_append_of_forall gaps.afterBrace.isBlank, (stripped_braced b gaps rows).strip_eq,
    ofStatement_braced]

end Grouped

/-! ### All three -/

theorem ofSource_separate (b : Base) (rows : List (Opening × ItemGaps × Item)) :
    ofSource (separate b rows) = rows.map fun row => row.2.2.below b := by
  induction rows with
  | nil => rfl
  | cons row rows ih =>
      have hfirst := ofSource_listed b [row.2] row.1
      rw [listed, Opening.statement] at hfirst
      rw [separate, List.flatMap_cons, ← separate, listed, Opening.statement, List.append_assoc, List.singleton_append,
        ofSource_append_semicolon, hfirst, ih]
      rfl

/-- **The three ways to import classes below one path agree.**  A group, with or without a comma after its last item, a
list and separate statements all give the same imports in order: the path and the name of each item, shown with one
leading backslash, and its alias.  White space around the words does not change them. -/
theorem syntaxes_agree (b : Base) (items : List Item)
    (group : GroupGaps) (rows : List (ItemGaps × Item)) (hrows : rows.map Prod.snd = items)
    (opening : Opening) (entries : List (ItemGaps × Item)) (hentries : entries.map Prod.snd = items)
    (lines : List (Opening × ItemGaps × Item)) (hlines : lines.map (fun line => line.2.2) = items) :
    ofSource (grouped b group rows) = items.map (Item.below b) ∧
      ofSource (listed b opening entries) = items.map (Item.below b) ∧
      ofSource (separate b lines) = items.map (Item.below b) := by
  refine ⟨?_, ?_, ?_⟩
  · rw [ofSource_grouped, ← hrows, List.map_map]
    rfl
  · rw [ofSource_listed, ← hentries, List.map_map]
    rfl
  · rw [ofSource_separate, ← hlines, List.map_map]
    rfl

/-! ### A path with a keyword in it -/

/-- A path whose first segment is a keyword. -/
def shelf : Base :=
  ⟨true, ["use", "Models"], by decide, by decide⟩

def user : Item :=
  ⟨⟨["User"], by decide, by decide⟩, none, nofun, by decide⟩

/-- A class whose last segment is a keyword, with an alias. -/
def article : Item :=
  ⟨⟨["function", "use"], by decide, by decide⟩, some "Article", by decide, by decide⟩

def noGap : Gap :=
  ⟨[], List.all_eq_true.mp (by decide)⟩

def oneSpace : Space :=
  ⟨⟨[' '], List.all_eq_true.mp (by decide)⟩, by decide⟩

def newLine : Space :=
  ⟨⟨['\r', '\n', '\t'], List.all_eq_true.mp (by decide)⟩, by decide⟩

/-- Words with single spaces between them. -/
def closeGaps : ItemGaps :=
  ⟨noGap, oneSpace, oneSpace, noGap⟩

/-- Words on lines of their own. -/
def wideGaps : ItemGaps :=
  ⟨newLine.toGap, newLine, newLine, newLine.toGap⟩

/-- Three texts that look different import the same two classes.  None of the words `use` in the path and in the last
name is taken for a keyword. -/
theorem shelf_syntaxes_agree :
    let group := grouped shelf ⟨⟨noGap, newLine⟩, noGap, some oneSpace.toGap, noGap⟩
      [(closeGaps, user), (wideGaps, article)]
    let list := listed shelf ⟨noGap, oneSpace⟩ [(closeGaps, user), (closeGaps, article)]
    let lines := separate shelf [(⟨noGap, oneSpace⟩, closeGaps, user), (⟨newLine.toGap, oneSpace⟩, closeGaps, article)]
    group = "use\r\n\t\\use\\Models\\\x7bUser,\r\n\tfunction\\use\r\n\tas\r\n\tArticle\r\n\t, \x7d;".toList ∧
      list = "use \\use\\Models\\User,\\use\\Models\\function\\use as Article;".toList ∧
      lines = "use \\use\\Models\\User;\r\n\tuse \\use\\Models\\function\\use as Article;".toList ∧
      ofSource group = [user.below shelf, article.below shelf] ∧
      ofSource list = [user.below shelf, article.below shelf] ∧
      ofSource lines = [user.below shelf, article.below shelf] ∧
      article.below shelf = ⟨"\\use\\Models\\function\\use".toList, some "Article".toList⟩ := by
  obtain ⟨hgroup, hlist, hlines⟩ := syntaxes_agree shelf [user, article]
    ⟨⟨noGap, newLine⟩, noGap, some oneSpace.toGap, noGap⟩ [(closeGaps, user), (wideGaps, article)] rfl
    ⟨noGap, oneSpace⟩ [(closeGaps, user), (closeGaps, article)] rfl
    [(⟨noGap, oneSpace⟩, closeGaps, user), (⟨newLine.toGap, oneSpace⟩, closeGaps, article)] rfl
  exact ⟨by decide +kernel, by decide +kernel, by decide +kernel, hgroup, hlist, hlines, by decide +kernel⟩

end Import

end ApiPages
