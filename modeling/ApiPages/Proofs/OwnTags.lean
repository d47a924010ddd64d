import ApiPages.Comment.Basic
import ApiPages.Proofs.Distinct
import ApiPages.Proofs.Segment

/-! # What a comment says itself and what it inherits

A request to inherit is a tag, or a mark that may stand anywhere in the comment; it drops what the comment says about
parameters and about what is returned.  Without it the parameters and the return type come from the tags of these two
kinds alone, so other tags between them do not matter (`read_inherits_or_own`).

`tagsOf` lists the tags row by row, and `ofText_eq_cons` says that these are the segments after the description. -/

namespace ApiPages

/-! ### Tags of rows -/

namespace Segment

variable {row tag : Text} {rows head : List Text}

/-- Each row that opens a tag, with the rows after it up to the next one. -/
def tagsOf : List Text → List Segment
  | [] => []
  | row :: rows =>
    match Text.words row with
    | ('@' :: tag) :: head => (⟨tag, head, []⟩ : Segment).pushAll (rows.takeWhile (!opensTag ·)) :: tagsOf rows
    | _ => tagsOf rows

theorem tagsOf_cons_of_tag (h : Text.words row = ('@' :: tag) :: head) :
    tagsOf (row :: rows) = (⟨tag, head, []⟩ : Segment).pushAll (rows.takeWhile (!opensTag ·)) :: tagsOf rows := by
  rw [tagsOf, h]
  rfl

theorem tagsOf_cons_of_not_opensTag (h : opensTag row = false) : tagsOf (row :: rows) = tagsOf rows := by
  rw [tagsOf]
  split
  · rename_i heq
    rw [opensTag_of_words_eq_cons heq] at h
    cases h
  · rfl

theorem tail_collect (current : Segment) (rows : List Text) : (collect current rows).tail = tagsOf rows := by
  induction rows generalizing current with
  | nil => rfl
  | cons row rows ih =>
      rcases row_cases row with hb | ⟨tag, head, ht⟩ | hc
      · rw [collect_blank hb, ih, tagsOf_cons_of_not_opensTag (opensTag_of_words_eq_nil hb)]
      · rw [collect_tag ht, List.tail_cons, collect_eq, ih, tagsOf_cons_of_tag ht]
      · rw [collect_line hc, ih, tagsOf_cons_of_not_opensTag hc.opensTag_eq]

/-- The segments of a text are its description and its tags. -/
theorem ofText_eq_cons (s : Text) :
    ∃ description : Segment, description.tag = descriptionTag ∧ ofText s = description :: tagsOf (Text.lines s) := by
  refine ⟨(⟨descriptionTag, [], []⟩ : Segment).pushAll ((Text.lines s).takeWhile (!opensTag ·)), ?_, ?_⟩
  · rw [pushAll_tag]
  · rw [ofText, collect_eq, tail_collect]

theorem mem_tagsOf_iff {seg : Segment} : seg ∈ tagsOf rows ↔ BeginsIn rows seg := by
  rw [← tail_collect ⟨descriptionTag, [], []⟩, mem_tail_collect_iff]

theorem exists_tag_iff :
    (∃ seg ∈ tagsOf rows, seg.tag = tag) ↔ ∃ row ∈ rows, (Text.words row).head? = some ('@' :: tag) := by
  simp only [mem_tagsOf_iff]
  constructor
  · rintro ⟨_, ⟨row, rest, tag, head, hsuffix, ht, rfl⟩, rfl⟩
    refine ⟨row, hsuffix.subset List.mem_cons_self, ?_⟩
    rw [ht, pushAll_tag, List.head?_cons]
  · rintro ⟨row, hrow, hhead⟩
    obtain ⟨before, rest, rfl⟩ := List.append_of_mem hrow
    obtain ⟨head, ht⟩ := List.head?_eq_some_iff.mp hhead
    exact ⟨_, ⟨row, rest, tag, head, List.suffix_append _ _, ht, rfl⟩, pushAll_tag _ _⟩

end Segment

/-! ### Parameters and what is returned -/

namespace Comment

variable {tag : Text}

/-- Each parameter is documented by the last tag of its name, where the first one stands. -/
theorem paramsOf_eq (ns : Text) (segments : List Segment) :
    paramsOf ns segments =
      lastOfEach ParamTag.name ((tagged segments "param").filterMap (ParamTag.ofSegment? ns)) := by
  rw [paramsOf]
  induction (tagged segments "param").filterMap (ParamTag.ofSegment? ns) using List.reverseRecOn with
  | nil => rfl
  | append_singleton tags p ih => rw [List.foldl_concat, ih, ParamTag.upsert, lastOfEach_concat]

/-- The words of the first tag that has any. -/
def firstWords (tags : List Segment) : List Text :=
  ((tags.map Segment.words).find? fun words => !words.isEmpty).getD []

theorem returnOf_eq (segments : List Segment) :
    returnOf segments =
      ((firstWords (tagged segments "return")).headD [], Text.unwords (firstWords (tagged segments "return")).tail) := by
  rw [returnOf, firstWords]
  induction tagged segments "return" with
  | nil => rfl
  | cons seg tags ih =>
      rw [List.findSome?_cons, List.map_cons, List.find?_cons, Segment.returned?]
      cases hwords : seg.words with
      | nil => exact ih
      | cons type rest => rfl

/-! ### Comments -/

/-- A comment that does not inherit says what its own tags say. -/
theorem ofSegments_of_own {ns : Text} {inlineMark : Bool} {segments : List Segment}
    (h : (ofSegments ns inlineMark segments).inheritsDoc = false) :
    (ofSegments ns inlineMark segments).params = paramsOf ns segments ∧
      (ofSegments ns inlineMark segments).returnType = (returnOf segments).1 := by
  simp only [ofSegments] at h ⊢
  simp only [h, Bool.false_eq_true, if_false, and_self]

theorem tagged_ofText (htag : tag ≠ Segment.descriptionTag) (s : Text) :
    tagged (Segment.ofText s) tag = tagged (Segment.tagsOf (Text.lines s)) tag := by
  obtain ⟨description, hd, hs⟩ := Segment.ofText_eq_cons s
  rw [hs, tagged, List.filter_cons_of_neg (by simpa [hd] using Ne.symm htag), ← tagged]

theorem hasTag_ofText (htag : tag ≠ Segment.descriptionTag) (s : Text) :
    hasTag (Segment.ofText s) tag = true ↔ ∃ row ∈ Text.lines s, (Text.words row).head? = some ('@' :: tag) := by
  obtain ⟨description, hd, hs⟩ := Segment.ofText_eq_cons s
  have hfirst : ¬ (description.tag == tag) = true := by simpa [hd] using Ne.symm htag
  rw [hs, hasTag, List.any_cons, Bool.or_eq_true, or_iff_right hfirst, List.any_eq_true, ← Segment.exists_tag_iff]
  simp

/-- A mark has no white space in it, so it stands within a word. -/
theorem occurs_mark_iff_exists_word {mark : Text} (hmark : mark ∈ inheritMarks) (s : Text) :
    Text.occurs mark s = true ↔ ∃ word ∈ Text.words s, Text.occurs mark word = true := by
  have hword : mark ≠ [] ∧ mark.all (fun c => !Text.isBlank c) = true := by
    revert mark
    decide
  have hblank : ∀ c ∈ mark, Text.isBlank c = false := by simpa using hword.2
  exact Text.occurs_iff_exists_word hword.1 hblank s

/-- Where a request to inherit can stand. -/
theorem inheritsDoc_iff (ns raw : Text) : (read ns raw).inheritsDoc = true ↔
    (∃ row ∈ Text.lines (clean raw), (Text.words row).head? = some "@inheritDoc".toList ∨
      (Text.words row).head? = some "@inheritdoc".toList) ∨
    "\x7b@inheritDoc\x7d".toList <:+: clean raw ∨ "\x7b@inheritdoc\x7d".toList <:+: clean raw := by
  have hupper : "@inheritDoc".toList = '@' :: "inheritDoc".toList := by decide
  have hlower : "@inheritdoc".toList = '@' :: "inheritdoc".toList := by decide
  have hmarks : inheritMarks.any (Text.occurs · (clean raw)) = true ↔
      "\x7b@inheritDoc\x7d".toList <:+: clean raw ∨ "\x7b@inheritdoc\x7d".toList <:+: clean raw := by
    simp only [inheritMarks, List.any_cons, List.any_nil, Bool.or_false, Bool.or_eq_true, Text.occurs_iff_isInfix]
  have htags : (∃ row ∈ Text.lines (clean raw), (Text.words row).head? = some "@inheritDoc".toList ∨
      (Text.words row).head? = some "@inheritdoc".toList) ↔
      hasTag (Segment.ofText (clean raw)) "inheritDoc" = true ∨
        hasTag (Segment.ofText (clean raw)) "inheritdoc" = true := by
    rw [hasTag_ofText (by decide), hasTag_ofText (by decide), ← exists_or]
    simp only [and_or_left, hupper, hlower]
  rw [htags, ← hmarks, read, ofSegments, Bool.or_eq_true, Bool.or_eq_true, or_assoc]
  exact or_comm

/-- **What is inherited replaces what a comment says itself.**  The comment inherits if a row opens one of the two tags
for it, or if one of the two marks stands anywhere in the comment.  Then it says nothing about parameters and about what
is returned.  Otherwise its parameters are those of the parameter tags that can be read, and its return type and its
description are the first word and the other words of the first return tag that has any, whatever stands between them. -/
theorem read_inherits_or_own (ns raw : Text) :
    let rows := Text.lines (clean raw)
    let said := read ns raw
    (said.inheritsDoc = true ↔
      (∃ row ∈ rows, (Text.words row).head? = some "@inheritDoc".toList ∨
        (Text.words row).head? = some "@inheritdoc".toList) ∨
      "\x7b@inheritDoc\x7d".toList <:+: clean raw ∨ "\x7b@inheritdoc\x7d".toList <:+: clean raw) ∧
    (said.inheritsDoc = true → said.params = [] ∧ said.returnType = [] ∧ said.returnDescription = []) ∧
    (said.inheritsDoc = false →
      said.params = lastOfEach ParamTag.name
        ((tagged (Segment.tagsOf rows) "param").filterMap (ParamTag.ofSegment? ns)) ∧
      said.returnType = (firstWords (tagged (Segment.tagsOf rows) "return")).headD [] ∧
      said.returnDescription = Text.unwords (firstWords (tagged (Segment.tagsOf rows) "return")).tail) := by
  intro rows said
  have hparam : tagged (Segment.ofText (clean raw)) "param" = tagged (Segment.tagsOf rows) "param" :=
    tagged_ofText (by decide) (clean raw)
  have hreturn : tagged (Segment.ofText (clean raw)) "return" = tagged (Segment.tagsOf rows) "return" :=
    tagged_ofText (by decide) (clean raw)
  refine ⟨inheritsDoc_iff ns raw, fun hinherits => ?_, fun hown => ?_⟩
  · simp only [said, read, ofSegments] at hinherits ⊢
    simp only [hinherits, if_true, and_self]
  · simp only [said, read, ofSegments] at hown ⊢
    simp only [hown, Bool.false_eq_true, if_false, paramsOf_eq, returnOf_eq, hparam, hreturn, and_self]

/-- A comment with two tags for one parameter, and an empty tag before the one for what is returned. -/
def repeated : Text :=
  "/** @param int $n\n@return\n@see it\n@return string its\nname\n@param bool $n All */"

/-- The comment asks to inherit in the text of a tag. -/
def inheriting : Text :=
  "/** @param int $n\n@see \x7b@inheritdoc\x7d */"

theorem tagsOf_repeated : Segment.tagsOf (Text.lines (clean repeated)) =
    [⟨"param", ["int", "$n"], []⟩, ⟨"return", [], []⟩, ⟨"see", ["it"], []⟩,
      ⟨"return", ["string", "its"], ["name"]⟩, ⟨"param", ["bool", "$n", "All"], []⟩] := by
  decide +kernel

theorem repeated_inherits_or_own :
    ((read [] repeated).inheritsDoc = false ∧
      (read [] repeated).params = [⟨"n", "bool", "All"⟩] ∧
      (read [] repeated).returnType = "string".toList ∧
      (read [] repeated).returnDescription = "its name".toList) ∧
    (read [] inheriting).inheritsDoc = true ∧ (read [] inheriting).params = [] := by
  obtain ⟨_, _, hown⟩ := read_inherits_or_own [] repeated
  obtain ⟨hflag, hinherits, _⟩ := read_inherits_or_own [] inheriting
  have hrepeated : (read [] repeated).inheritsDoc = false := by decide +kernel
  have hinheriting : (read [] inheriting).inheritsDoc = true := hflag.mpr (.inr (.inr (by decide +kernel)))
  rw [tagsOf_repeated] at hown
  obtain ⟨hparams, htype, hdescription⟩ := hown hrepeated
  refine ⟨⟨hrepeated, hparams.trans ?_, htype.trans ?_, hdescription.trans ?_⟩, hinheriting, (hinherits hinheriting).1⟩
  · decide +kernel
  · decide +kernel
  · decide +kernel

end Comment

end ApiPages
