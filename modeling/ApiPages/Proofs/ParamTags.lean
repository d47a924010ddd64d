import ApiPages.Proofs.OwnTags

/-! # The documented parameters of a comment

A parameter tag is read from its words: the name is one of them up to the first `=`, without the signs in front of it
(`exists_word_of_ofSegment?`).  So the name of a parameter is never empty and can be looked up with any number of `$`
before it.  Where several tags have one name, the parameter stands in the place of the first and has the content of the
last (`LastOfEachName`). -/

namespace ApiPages

/-! ### One tag -/

namespace ParamTag

variable {ns : Text} {s : Segment} {p : ParamTag} {params tags : List ParamTag}

/-- What the name of a documented parameter looks like. -/
structure IsName (name : Text) : Prop where
  ne_nil : name ≠ []
  noBlank : ∀ c ∈ name, Text.isBlank c = false
  noEquals : '=' ∉ name
  noSigil : ∀ c ∈ name.head?, c ≠ '&' ∧ c ≠ '.' ∧ c ≠ '$'

theorem name_of_ofWords? {type word : Text} {rest lines : List Text} (h : ofWords? ns type word rest lines = some p) :
    p.name = (word.takeWhile (· != '=')).dropWhile isSigil ∧ p.name ≠ [] := by
  simp only [ofWords?] at h
  split at h
  · cases h
  · rename_i hne
    cases h
    exact ⟨rfl, by simpa using hne⟩

theorem exists_word_of_ofSegment? (h : ofSegment? ns s = some p) :
    ∃ word ∈ s.head, p.name = (word.takeWhile (· != '=')).dropWhile isSigil ∧ p.name ≠ [] := by
  unfold ofSegment? at h
  split at h
  · rename_i name rest hhead
    exact ⟨'$' :: name, by simp [hhead], name_of_ofWords? h⟩
  · rename_i type name rest _ hhead
    exact ⟨name, by simp [hhead], name_of_ofWords? h⟩
  · cases h

theorem isName_of_ofSegment? (h : ofSegment? ns s = some p)
    (hs : ∀ word ∈ s.head, ∀ c ∈ word, Text.isBlank c = false) : IsName p.name := by
  obtain ⟨word, hword, hname, hne⟩ := exists_word_of_ofSegment? h
  have hmem : ∀ c ∈ p.name, c ∈ word.takeWhile (· != '=') := by
    intro c hc
    rw [hname] at hc
    exact (List.dropWhile_suffix _).subset hc
  refine ⟨hne, fun c hc => ?_, fun hc => ?_, fun c hc => ?_⟩
  · exact hs word hword c ((List.takeWhile_prefix _).subset (hmem c hc))
  · have hcut := List.mem_takeWhile_imp (hmem '=' hc)
    simp at hcut
  · have hfirst := List.head?_dropWhile_not isSigil (word.takeWhile (· != '='))
    rw [← hname, Option.mem_def.mp hc] at hfirst
    simpa [isSigil, and_assoc] using hfirst

/-- No word of a tag has white space in it. -/
theorem isBlank_of_mem_head {rows : List Text} (hs : s ∈ Segment.tagsOf rows) :
    ∀ word ∈ s.head, ∀ c ∈ word, Text.isBlank c = false := by
  obtain ⟨row, rest, tag, head, _, hwords, rfl⟩ := Segment.mem_tagsOf_iff.mp hs
  intro word hword
  rw [Segment.pushAll_head] at hword
  refine Text.isBlank_of_mem_words (s := row) ?_
  rw [hwords]
  exact List.mem_cons_of_mem _ hword

/-! ### Tags of one name -/

/-- The parameters are the last tags of each name, in the order in which the names first occur. -/
structure LastOfEachName (tags params : List ParamTag) : Prop where
  distinct : (params.map name).Nodup
  /-- Every tag has a parameter of its name, and every parameter a tag. -/
  names : ∀ n, n ∈ params.map name ↔ n ∈ tags.map name
  /-- The parameters are in the order of the first tags of their names. -/
  order : params.Pairwise fun p q => tags.findIdx (·.name = p.name) < tags.findIdx (·.name = q.name)
  /-- No other tag of its name comes after the one that a parameter is. -/
  last : ∀ p ∈ params, ∃ before after, tags = before ++ p :: after ∧ ∀ q ∈ after, q.name ≠ p.name

theorem lastOfEachName (tags : List ParamTag) : LastOfEachName tags (lastOfEach name tags) where
  distinct := nodup_map_lastOfEach name tags
  names _ := mem_map_lastOfEach
  order := pairwise_lastOfEach name tags
  last _ hp := exists_append_of_mem_lastOfEach hp

theorem LastOfEachName.mem_tags (h : LastOfEachName tags params) (hp : p ∈ params) : p ∈ tags := by
  obtain ⟨before, after, hsplit, _⟩ := h.last p hp
  simp [hsplit]

end ParamTag

/-! ### Comments -/

namespace Comment

/-- **A comment documents each parameter once.**  Unless it inherits its documentation, its parameters have distinct
names, which are in the order of the first tags that are read to them, and each parameter is the last tag that is read
to its name.  The names are as `ParamTag.IsName` says.  With any number of `$` before its name each parameter is found,
and nothing is found for any other name. -/
theorem read_params_last_of_each (ns raw : Text) (hown : (read ns raw).inheritsDoc = false) :
    let tags := (tagged (Segment.tagsOf (Text.lines (clean raw))) "param").filterMap (ParamTag.ofSegment? ns)
    let said := read ns raw
    ParamTag.LastOfEachName tags said.params ∧
    (∀ p ∈ said.params, ParamTag.IsName p.name) ∧
    (∀ p ∈ said.params, ∀ k, said.param? (List.replicate k '$' ++ p.name) = some p) ∧
    ∀ name, said.param? name = none ↔ name.dropWhile (· == '$') ∉ said.params.map ParamTag.name := by
  intro tags said
  have hlastOf : said.params = lastOfEach ParamTag.name tags := by
    have hparams : said.params = paramsOf ns (Segment.ofText (clean raw)) := (ofSegments_of_own hown).1
    rw [hparams, paramsOf_eq, tagged_ofText (by decide)]
  have hlast : ParamTag.LastOfEachName tags said.params := hlastOf ▸ ParamTag.lastOfEachName tags
  have hname : ∀ p ∈ said.params, ParamTag.IsName p.name := by
    intro p hp
    obtain ⟨s, hs, hread⟩ := List.mem_filterMap.mp (hlast.mem_tags hp)
    exact ParamTag.isName_of_ofSegment? hread (ParamTag.isBlank_of_mem_head (List.mem_filter.mp hs).1)
  refine ⟨hlast, hname, fun p hp k => ?_, fun name => ?_⟩
  · -- The name itself does not begin with `$`.
    have hdrop : p.name.dropWhile (· == '$') = p.name :=
      Text.dropWhile_eq_self fun c hc => by simpa using ((hname p hp).noSigil c hc).2.2
    rw [param?, List.dropWhile_append_of_pos (by simp), hdrop]
    exact find?_of_nodup_map hlast.distinct hp
  · rw [param?, List.find?_eq_none]
    simp

/-- One parameter with three tags, which write its name in three ways, and another one between them. -/
def rewritten : Text :=
  "/** @param int $n\n@param ...$\n@param $m=1 Most\n@param A &$n\n@param B ...$n=2 All\nof it */"

/-- The comment has two parameters; the second tag has no name. -/
theorem rewritten_params_last_of_each :
    (read [] rewritten).inheritsDoc = false ∧
    (read [] rewritten).params = [⟨"n", "\\B", "All of it"⟩, ⟨"m", "mixed", "Most"⟩] ∧
    (read [] rewritten).param? "$$n" = some ⟨"n", "\\B", "All of it"⟩ ∧
    (read [] rewritten).param? "$$" = none := by
  have hown : (read [] rewritten).inheritsDoc = false := by decide +kernel
  have hparams : (read [] rewritten).params = [⟨"n", "\\B", "All of it"⟩, ⟨"m", "mixed", "Most"⟩] := by decide +kernel
  obtain ⟨_, _, hfound, hnone⟩ := read_params_last_of_each [] rewritten hown
  refine ⟨hown, hparams, ?_, (hnone _).mpr ?_⟩
  · exact hfound ⟨"n", "\\B", "All of it"⟩ (by simp [hparams]) 2
  · rw [hparams]
    decide

end Comment

end ApiPages
