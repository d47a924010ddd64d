import Mathlib.Data.Fin.VecNotation
import Mathlib.Data.List.FinRange
import Mathlib.Data.List.Sort
import ApiPages.Proofs.ByteOrder
import ApiPages.Proofs.OwnTags

/-! # The order of the tags of a comment

Tags of different names may change places.  Every field of a comment is made from the segments of one tag, or of a few
tags one by one (`ofSegments_congr`), and a rearrangement keeps the segments of each tag (`Rearranged.tagged_eq`).  Only
a mark that asks to inherit is looked for in the whole text; it has no white space, so it stands in a word of some
segment, wherever that segment is (`occurs_mark_iff`). -/

namespace ApiPages

namespace Comment

variable {xs ys : List Segment} {seg : Segment}

/-! ### Segments in other places -/

/-- The segments `ys` are the segments `xs` in other places, and those with one tag come in the same order. -/
def Rearranged (xs ys : List Segment) : Prop :=
  ∃ place : Fin xs.length ≃ Fin ys.length,
    (∀ i, ys.get (place i) = xs.get i) ∧
    ∀ i j, i < j → (xs.get i).tag = (xs.get j).tag → place i < place j

/-- The places of a tag in ascending order. -/
def placesOf (xs : List Segment) (tag : Text) : List (Fin xs.length) :=
  (List.finRange xs.length).filter fun i => (xs.get i).tag == tag

theorem mem_placesOf_iff {tag : Text} {i : Fin xs.length} : i ∈ placesOf xs tag ↔ (xs.get i).tag = tag := by
  simp [placesOf]

theorem pairwise_placesOf (xs : List Segment) (tag : Text) : (placesOf xs tag).Pairwise (· < ·) :=
  (List.sortedLT_finRange xs.length).pairwise.filter _

theorem tagged_eq_map (xs : List Segment) (tag : Text) : tagged xs tag = (placesOf xs tag).map xs.get := by
  conv_lhs => rw [← List.map_get_finRange xs]
  exact List.filter_map

theorem Rearranged.tagged_eq (h : Rearranged xs ys) (tag : Text) : tagged xs tag = tagged ys tag := by
  obtain ⟨place, hget, horder⟩ := h
  have hsorted : ((placesOf xs tag).map place).Pairwise (· < ·) := by
    rw [List.pairwise_map]
    refine (pairwise_placesOf xs tag).imp_of_mem fun hi hj hlt => horder _ _ hlt ?_
    rw [mem_placesOf_iff.mp hi, mem_placesOf_iff.mp hj]
  -- The places of the tag go to the places of the tag; both lists are in ascending order, so they are the same.
  have hplaces : (placesOf xs tag).map place = placesOf ys tag := by
    refine hsorted.sortedLT.eq_of_mem_iff (pairwise_placesOf ys tag).sortedLT fun j => ?_
    obtain ⟨i, rfl⟩ := place.surjective j
    rw [List.mem_map_of_injective place.injective, mem_placesOf_iff, mem_placesOf_iff, hget]
  rw [tagged_eq_map, tagged_eq_map, ← hplaces, List.map_map]
  exact List.map_congr_left fun i _ => (hget i).symm

/-! ### What depends on the segments of each tag -/

section Congr

variable (h : ∀ tag, tagged xs tag = tagged ys tag)

include h in
theorem mem_iff_of_tagged_eq : seg ∈ xs ↔ seg ∈ ys := by
  have hown : ∀ zs : List Segment, seg ∈ zs ↔ seg ∈ tagged zs seg.tag := by simp [tagged]
  rw [hown xs, hown ys, h]

theorem hasTag_eq (segments : List Segment) (tag : Text) : hasTag segments tag = !(tagged segments tag).isEmpty := by
  rw [hasTag, tagged, Bool.eq_iff_iff]
  simp

include h in
/-- The names of the other tags are sorted and without repeats, so it matters only which there are. -/
theorem otherTagNames_congr : otherTagNames xs = otherTagNames ys := by
  have hmem : ∀ tag, tag ∈ xs.map Segment.tag ↔ tag ∈ ys.map Segment.tag := by
    simp only [List.mem_map, mem_iff_of_tagged_eq h, implies_true]
  have hsorted : ∀ tags : List Text, (tags.mergeSort Text.le).Pairwise fun s t => Text.le s t = true :=
    List.pairwise_mergeSort Text.le_trans Text.le_total
  refine List.Perm.eq_of_pairwise (fun s t _ _ => Text.le_antisymm s t) (hsorted _) (hsorted _) ?_
  refine ((List.mergeSort_perm _ _).trans ?_).trans (List.mergeSort_perm _ _).symm
  rw [List.perm_ext_iff_of_nodup (nodup_eraseDups _) (nodup_eraseDups _)]
  intro tag
  rw [List.mem_eraseDups, List.mem_eraseDups, List.mem_filter, List.mem_filter, hmem]

include h in
theorem ofSegments_congr (ns : Text) (inlineMark : Bool) :
    ofSegments ns inlineMark xs = ofSegments ns inlineMark ys := by
  simp only [ofSegments, textOf, paramsOf, returnOf, hasTag_eq, h, otherTagNames_congr h]

end Congr

/-! ### Marks -/

/-- A mark stands in a word of the description, in the name of a tag or in a word of it. -/
theorem occurs_mark_iff {mark text : Text} (hmark : mark ∈ inheritMarks) {description : Segment} {tags : List Segment}
    (h : Segment.ofText text = description :: tags) :
    Text.occurs mark text = true ↔
      (∃ word ∈ description.words, Text.occurs mark word = true) ∨
      ∃ seg ∈ tags, ∃ word ∈ seg.written, Text.occurs mark word = true := by
  rw [occurs_mark_iff_exists_word hmark, Segment.words_of_ofText h]
  simp only [List.mem_append, List.mem_flatMap, or_and_right, exists_or]
  exact or_congr_right ⟨fun ⟨word, ⟨seg, hseg, hw⟩, ho⟩ => ⟨seg, hseg, word, hw, ho⟩,
    fun ⟨seg, hseg, word, hw, ho⟩ => ⟨word, ⟨seg, hseg, hw⟩, ho⟩⟩

/-- **The order of different tags does not matter.**  Two comments say the same if they have the same description and
if the tags of one are those of the other in other places, where only tags of one name keep their order. -/
theorem read_rearranged {raw raw' : Text}
    (hfirst : (Segment.ofText (clean raw)).head? = (Segment.ofText (clean raw')).head?)
    (htags : Rearranged (Segment.ofText (clean raw)).tail (Segment.ofText (clean raw')).tail) (ns : Text) :
    read ns raw = read ns raw' := by
  obtain ⟨description, _, hs⟩ := Segment.ofText_eq_cons (clean raw)
  obtain ⟨description', _, hs'⟩ := Segment.ofText_eq_cons (clean raw')
  rw [hs, hs', List.tail_cons, List.tail_cons] at htags
  obtain rfl : description = description' := by simpa [hs, hs'] using hfirst
  have htagged : ∀ tag, tagged (Segment.ofText (clean raw)) tag = tagged (Segment.ofText (clean raw')) tag := by
    intro tag
    have htail := htags.tagged_eq tag
    unfold tagged at htail ⊢
    rw [hs, hs', List.filter_cons, List.filter_cons, htail]
  have hmarks : inheritMarks.any (Text.occurs · (clean raw)) = inheritMarks.any (Text.occurs · (clean raw')) := by
    rw [Bool.eq_iff_iff, List.any_eq_true, List.any_eq_true]
    refine exists_congr fun mark => and_congr_right fun hmark => ?_
    rw [occurs_mark_iff hmark hs, occurs_mark_iff hmark hs']
    simp only [mem_iff_of_tagged_eq htags.tagged_eq]
  simp only [read, hmarks, ofSegments_congr htagged]

/-- Two tags of each of two names, and a mark in the text of another tag between them. -/
def letter : Text :=
  "/** Sends.\n@param $n\n@todo a\n@see \x7b@inheritDoc\x7d\n@todo b\n@param $m */"

/-- The same tags in other places. -/
def shuffled : Text :=
  "/** Sends.\n@todo a\n@param $n\n@param $m\n@see \x7b@inheritDoc\x7d\n@todo b */"

/-- Where the tags go. -/
def shuffle : Fin 5 ≃ Fin 5 where
  toFun := ![1, 0, 3, 4, 2]
  invFun := ![1, 0, 4, 2, 3]
  left_inv i := by revert i; decide
  right_inv i := by revert i; decide

theorem ofText_letter : Segment.ofText (clean letter) =
    [⟨"description", [], ["Sends."]⟩, ⟨"param", ["$n"], []⟩, ⟨"todo", ["a"], []⟩,
      ⟨"see", ["\x7b@inheritDoc\x7d"], []⟩, ⟨"todo", ["b"], []⟩, ⟨"param", ["$m"], []⟩] := by
  decide +kernel

theorem ofText_shuffled : Segment.ofText (clean shuffled) =
    [⟨"description", [], ["Sends."]⟩, ⟨"todo", ["a"], []⟩, ⟨"param", ["$n"], []⟩, ⟨"param", ["$m"], []⟩,
      ⟨"see", ["\x7b@inheritDoc\x7d"], []⟩, ⟨"todo", ["b"], []⟩] := by
  decide +kernel

/-- What both say: the mark asks for inherited documentation, so the parameters are left out. -/
theorem letter_shuffled :
    letter ≠ shuffled ∧ (Segment.ofText (clean letter)).head? = (Segment.ofText (clean shuffled)).head? ∧
    Rearranged (Segment.ofText (clean letter)).tail (Segment.ofText (clean shuffled)).tail ∧
    (∀ ns, read ns letter = read ns shuffled) ∧
    read "Mail" shuffled =
      { description := "Sends.", see := ["\x7b@inheritDoc\x7d"], inheritsDoc := true,
        otherTags := [("todo", ["a", "b"])] } := by
  have hfirst : (Segment.ofText (clean letter)).head? = (Segment.ofText (clean shuffled)).head? := by
    rw [ofText_letter, ofText_shuffled]
    rfl
  have htags : Rearranged (Segment.ofText (clean letter)).tail (Segment.ofText (clean shuffled)).tail := by
    rw [ofText_letter, ofText_shuffled]
    exact ⟨shuffle, by decide, by decide⟩
  have hread := read_rearranged hfirst htags
  refine ⟨by decide, hfirst, htags, hread, ?_⟩
  rw [← hread]
  decide +kernel

end Comment

end ApiPages
