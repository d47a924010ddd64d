import ApiPages.Proofs.Candidate
import ApiPages.Proofs.Lines
import ApiPages.TypeUnion.Resolve

/-! # Names that a source imports

`importOf?` is the import that the first segment of a bare class name refers to; only the names that it finds are
replaced (`resolveCandidate_of_none`, `resolveCandidate_of_some`).  One bracket pair is taken off before the search,
so a name of one segment with two pairs or more is found under no import (`importOf?_brackets`).

The imports of a source are `Plain` where its groups lie below class paths (`plain_of_mem_ofSource`). -/

namespace ApiPages

/-! ### Plain imports -/

namespace Import

/-- The path of an import is a class name in the form that is shown, and its local name has no brackets. -/
structure Plain (i : Import) : Prop where
  shown : ClassName.display i.path = i.path
  ne_root : i.path ≠ ['\\']
  unseparated : TypeUnion.Unseparated i.path
  localName : ∀ c ∈ i.localName, TypeUnion.isBracket c = false

variable {i : Import} {imports : List Import} {path name item group s : Text}

theorem Plain.exists_eq (h : i.Plain) : ∃ p, i.path = '\\' :: p ∧ p ≠ [] ∧ Text.Stripped ClassName.isOuter p := by
  refine ⟨Text.strip ClassName.isOuter i.path, h.shown.symm, fun hnil => h.ne_root ?_, Text.stripped_strip _ _⟩
  rw [← h.shown, ClassName.display, hnil]

/-- No import is found under a name with a bracket. -/
theorem find?_eq_none_of_bracket (h : ∀ i ∈ imports, i.Plain) (hname : ']' ∈ name) : find? imports name = none := by
  have hdrop : ']' ∈ name.dropWhile ClassName.isBackslash := by
    have hsplit := List.takeWhile_append_dropWhile (p := ClassName.isBackslash) (l := name)
    rw [← hsplit, List.mem_append] at hname
    rcases hname with hc | hc
    · cases List.mem_takeWhile_imp hc
    · exact hc
  rw [find?, List.find?_eq_none]
  intro i hi hsame
  have hlower : Text.lower i.localName = Text.lower (name.dropWhile ClassName.isBackslash) := by
    simpa [Text.sameLetters] using hsame
  have hmem : ']' ∈ Text.lower i.localName := by
    rw [hlower]
    exact List.mem_map.mpr ⟨']', hdrop, rfl⟩
  obtain ⟨c, hc, hbracket⟩ := List.mem_map.mp hmem
  rw [Text.toLower_eq_iff (by decide)] at hbracket
  have hplain := (h i hi).localName c hc
  rw [hbracket] at hplain
  cases hplain

theorem isIdentifierChar_plain {c : Char} (h : isIdentifierChar c = true) :
    TypeUnion.isSeparator c = false ∧ TypeUnion.isBracket c = false := by
  have hother : ∀ x ∈ ['|', '/', '[', ']'], ¬ isIdentifierChar x = true := List.any_eq_false.mp (by decide)
  have hne : ∀ x ∈ ['|', '/', '[', ']'], c ≠ x := by
    rintro x hx rfl
    exact hother c hx h
  simp [TypeUnion.isSeparator, TypeUnion.isBracket, hne]

/-- An import that is read from identifier characters: its path is in the form that is shown. -/
structure Spelled (i : Import) : Prop where
  path : ∃ path, i.path = ClassName.display path ∧ ∀ c ∈ path, isIdentifierChar c = true
  aliasName : ∀ name ∈ i.aliasName, ∀ c ∈ name, isIdentifierChar c = true

theorem Spelled.plain (h : i.Spelled) (hroot : i.path ≠ ['\\']) : i.Plain := by
  obtain ⟨path, hpath, hchars⟩ := h.path
  refine ⟨?_, hroot, ?_, fun c hc => ?_⟩
  · rw [hpath, ClassName.display, ClassName.strip_display]
    rfl
  · rw [hpath]
    exact TypeUnion.Unseparated.display fun c hc => (isIdentifierChar_plain (hchars c hc)).1
  · unfold localName at hc
    cases halias : i.aliasName with
    | some name =>
        rw [halias] at hc
        exact (isIdentifierChar_plain (h.aliasName name halias c hc)).2
    | none =>
        rw [halias, Option.getD_none, hpath] at hc
        rcases List.mem_cons.mp (ClassName.mem_of_mem_short hc) with rfl | hmem
        · decide
        · exact (isIdentifierChar_plain (hchars c (Text.mem_of_mem_strip hmem))).2

theorem isIdentifierChar_of_isPath (h : isPath path = true) : ∀ c ∈ path, isIdentifierChar c = true := by
  intro c hc
  rw [isPath, List.all_eq_true] at h
  exact (Bool.and_eq_true_iff.mp (h c hc)).1

/-- An item that is imported is a path, with or without an alias. -/
theorem exists_path_of_ofItem? (h : ofItem? item = some i) :
    ∃ path, i.path = ClassName.display path ∧ isPath path = true ∧
      ∀ name ∈ i.aliasName, ∀ c ∈ name, isIdentifierChar c = true := by
  unfold ofItem? at h
  split at h
  · split at h
    · rename_i path _ hpath
      cases h
      exact ⟨path, rfl, hpath, by simp⟩
    · cases h
  · split at h
    · rename_i path keyword name _ hparts
      cases h
      obtain ⟨hfront, hname⟩ := Bool.and_eq_true_iff.mp hparts
      refine ⟨path, rfl, (Bool.and_eq_true_iff.mp hfront).2, ?_⟩
      rintro _ ⟨⟩
      exact List.all_eq_true.mp hname
    · cases h
  · cases h

theorem spelled_of_ofItem? (h : ofItem? item = some i) : i.Spelled := by
  obtain ⟨path, hshown, hpath, halias⟩ := exists_path_of_ofItem? h
  exact ⟨⟨path, hshown, isIdentifierChar_of_isPath hpath⟩, halias⟩

theorem Spelled.under (h : i.Spelled) (hgroup : isPath group = true) : (under group i).Spelled := by
  obtain ⟨path, hpath, hchars⟩ := h.path
  refine ⟨⟨_, rfl, fun c hc => ?_⟩, h.aliasName⟩
  rcases List.mem_append.mp hc with hc | hc
  · exact isIdentifierChar_of_isPath hgroup c hc
  · rcases List.mem_cons.mp hc with rfl | hc
    · decide
    · rw [hpath] at hc
      rcases List.mem_cons.mp ((List.dropWhile_suffix _).subset hc) with rfl | hc
      · decide
      · exact hchars c (Text.mem_of_mem_strip hc)

/-- The path of the group of a statement, if it has one. -/
def groupOf? (s : Text) : Option Text :=
  (Text.cutFirst? ['{'] s).map fun cut => groupPath cut.1

/-- An import is an item of its statement, or an item placed below the path of the group. -/
theorem cases_of_mem_ofStatement (hi : i ∈ ofStatement s) :
    (groupOf? s = none ∧ ∃ item, ofItem? item = some i) ∨
      ∃ group item j, groupOf? s = some group ∧ ofItem? item = some j ∧ i = under group j := by
  unfold ofStatement at hi
  split at hi
  · cases hi
  · split at hi
    · rename_i hcut
      obtain ⟨item, _, hitem⟩ := List.mem_filterMap.mp hi
      exact .inl ⟨by rw [groupOf?, hcut, Option.map_none], item, hitem⟩
    · rename_i before after hcut
      split at hi
      · cases hi
      · obtain ⟨item, _, hitem⟩ := List.mem_filterMap.mp hi
        obtain ⟨inner, hinner, rfl⟩ := Option.map_eq_some_iff.mp hitem
        exact .inr ⟨groupPath before, item, inner, by rw [groupOf?, hcut, Option.map_some], hinner, rfl⟩

theorem spelled_of_mem_ofStatement (hgroup : ∀ group ∈ groupOf? s, isPath group = true) (hi : i ∈ ofStatement s) :
    i.Spelled := by
  rcases cases_of_mem_ofStatement hi with ⟨_, item, hitem⟩ | ⟨group, item, inner, hsome, hinner, rfl⟩
  · exact spelled_of_ofItem? hitem
  · exact (spelled_of_ofItem? hinner).under (hgroup group hsome)

/-- The imports of a source are plain, unless nothing but backslashes is imported. -/
theorem plain_of_mem_ofSource {source : Text}
    (hgroups : ∀ chunk ∈ useChunks source, ∀ group ∈ groupOf? (Text.trim (chunk.takeWhile (· != ';'))),
      isPath group = true)
    (hi : i ∈ ofSource source) (hroot : i.path ≠ ['\\']) : i.Plain := by
  obtain ⟨chunk, hchunk, hi⟩ := List.mem_flatMap.mp hi
  exact (spelled_of_mem_ofStatement (hgroups chunk hchunk) hi).plain hroot

end Import

/-! ### Names in array types -/

namespace TypeUnion

variable {imports : List Import} {i : Import} {c name s : Text} {n : Nat}

/-- The bracket pairs of an array of arrays. -/
def brackets (n : Nat) : Text :=
  (List.replicate n ("[]" : Text)).flatten

theorem brackets_succ (n : Nat) : brackets (n + 1) = brackets n ++ "[]" := by
  rw [brackets, brackets, List.replicate_succ', List.flatten_append, List.flatten_singleton]

theorem isBracket_of_mem_brackets {x : Char} (h : x ∈ brackets n) : isBracket x = true := by
  have hpair : ∀ y ∈ ("[]" : Text), isBracket y = true := List.all_eq_true.mp (by decide)
  obtain ⟨pair, hmem, hx⟩ := List.mem_flatten.mp h
  rw [List.eq_of_mem_replicate hmem] at hx
  exact hpair x hx

theorem isOuter_of_mem_brackets {x : Char} (h : x ∈ brackets n) : ClassName.isOuter x = false := by
  rcases Bool.or_eq_true_iff.mp (isBracket_of_mem_brackets h) with hx | hx <;> rw [beq_iff_eq.mp hx] <;> decide

theorem isBracket_toLower (x : Char) : isBracket x.toLower = isBracket x := by
  rw [Bool.eq_iff_iff]
  simp only [isBracket, Bool.or_eq_true, beq_iff_eq]
  rw [Text.toLower_eq_iff (by decide), Text.toLower_eq_iff (by decide)]

/-- The characters of a class path.  The others have a meaning in types. -/
def isPathChar (c : Char) : Bool :=
  !(Text.isBlank c || isSeparator c || isBracket c || c == '?' || c == '$')

theorem isPathChar_iff {x : Char} : isPathChar x = true ↔
    Text.isBlank x = false ∧ isSeparator x = false ∧ isBracket x = false ∧ x ≠ '?' ∧ x ≠ '$' := by
  simp [isPathChar, and_assoc]

/-- A class name that is not absolute and not the name of a native type. -/
structure IsBareName (name : Text) : Prop where
  ne_nil : name ≠ []
  chars : ∀ c ∈ name, isPathChar c = true
  head : name.head? ≠ some '\\'
  last : name.getLast? ≠ some '\\'
  notNative : isNative name = false

namespace IsBareName

variable (h : IsBareName name)

include h

theorem plain_of_mem {x : Char} (hx : x ∈ name ++ brackets n) : Text.isBlank x = false ∧ isSeparator x = false := by
  rcases List.mem_append.mp hx with hx | hx
  · obtain ⟨hblank, hsep, _⟩ := isPathChar_iff.mp (h.chars x hx)
    exact ⟨hblank, hsep⟩
  · have hpair : ∀ y, isBracket y = true → Text.isBlank y = false ∧ isSeparator y = false := by
      intro y hy
      rcases Bool.or_eq_true_iff.mp hy with hy | hy <;> rw [beq_iff_eq.mp hy] <;> decide
    exact hpair x (isBracket_of_mem_brackets hx)

theorem isCandidate (n : Nat) : IsCandidate (name ++ brackets n) where
  ne_nil := by simp [h.ne_nil]
  trimmed := Text.trim_eq_self fun _ hx => (h.plain_of_mem hx).1
  unseparated _ hx := (h.plain_of_mem hx).2

theorem head_append (s : Text) : ∃ x, (name ++ s).head? = some x ∧ x ≠ '\\' ∧ x ≠ '?' ∧ x ≠ '$' := by
  obtain ⟨x, rest, rfl⟩ := List.exists_cons_of_ne_nil h.ne_nil
  obtain ⟨_, _, _, hmark, hdollar⟩ := isPathChar_iff.mp (h.chars x List.mem_cons_self)
  exact ⟨x, rfl, fun heq => h.head (congrArg some heq), hmark, hdollar⟩

theorem isBackslash_of_mem_getLast? {x : Char} (hx : x ∈ name.getLast?) : ClassName.isBackslash x = false := by
  rw [ClassName.isBackslash, beq_eq_false_iff_ne]
  rintro rfl
  exact h.last hx

theorem isOuter_of_mem_getLast? {x : Char} (hx : x ∈ name.getLast?) : ClassName.isOuter x = false := by
  rw [ClassName.isOuter, Bool.or_eq_false_iff]
  exact ⟨h.isBackslash_of_mem_getLast? hx, (isPathChar_iff.mp (h.chars x (List.mem_of_getLast? hx))).1⟩

theorem contains_lower : natives.contains (Text.lower name) = false := by
  have htrim : Text.trim name = name := Text.trim_eq_self fun x hx => (isPathChar_iff.mp (h.chars x hx)).1
  have hstrip : Text.strip ClassName.isBackslash name = name := by
    refine Text.Stripped.strip_eq ⟨fun x hx => ?_, fun x hx => h.isBackslash_of_mem_getLast? hx⟩
    rw [ClassName.isBackslash, beq_eq_false_iff_ne]
    rintro rfl
    exact h.head hx
  have hnative := h.notNative
  rwa [isNative, htrim, hstrip] at hnative

/-- Bracket pairs do not hide that a name refers to a class. -/
theorem isClassReference_brackets (n : Nat) : isClassReference (name ++ brackets n) = true := by
  have hlower : Text.lower (name ++ brackets n) = Text.lower name ++ Text.lower (brackets n) := List.map_append
  have hpairs : ∀ x ∈ Text.lower (brackets n), isBracket x = true := by
    intro x hx
    obtain ⟨y, hy, rfl⟩ := List.mem_map.mp hx
    rw [isBracket_toLower, isBracket_of_mem_brackets hy]
  have hfront : (Text.lower (name ++ brackets n)).dropWhile ClassName.isBackslash =
      Text.lower (name ++ brackets n) := by
    obtain ⟨x, hx, hne, _⟩ := h.head_append (brackets n)
    refine Text.dropWhile_eq_self fun y hy => ?_
    rw [Text.lower, List.head?_map, hx, Option.map_some, Option.mem_some_iff] at hy
    rw [← hy, ClassName.isBackslash_toLower, ClassName.isBackslash, beq_eq_false_iff_ne]
    exact hne
  have hend : Text.dropEndWhile isBracket (Text.lower name) = Text.lower name := by
    refine Text.dropEndWhile_eq_self fun y hy => ?_
    rw [Text.lower, List.getLast?_map, Option.mem_def, Option.map_eq_some_iff] at hy
    obtain ⟨x, hx, rfl⟩ := hy
    rw [isBracket_toLower]
    exact (isPathChar_iff.mp (h.chars x (List.mem_of_getLast? hx))).2.2.1
  have hbase : Text.dropEndWhile isBracket ((Text.lower (name ++ brackets n)).dropWhile ClassName.isBackslash) =
      Text.lower name := by
    rw [hfront, hlower, Text.dropEndWhile_append_of_forall hpairs, hend]
  have hblank : (name ++ brackets n).any Text.isBlank = false := by
    rw [List.any_eq_false]
    intro x hx
    rw [(h.plain_of_mem hx).1]
    decide
  obtain ⟨x, hx, _, _, hdollar⟩ := h.head_append (brackets n)
  have hne : Text.lower name ≠ [] := by
    simpa [Text.lower] using h.ne_nil
  simp only [isClassReference, (h.isCandidate n).trimmed, hbase, h.contains_lower, hblank, hx]
  simp [h.ne_nil, hne, hdollar]

end IsBareName

/-! ### The import that a name refers to -/

/-- The import under which the first segment of a bare class name is known. -/
def importOf? (imports : List Import) (c : Text) : Option Import :=
  if c.head? = some '\\' ∨ c.head? = some '?' ∨ !isClassReference c then none
  else Import.find? imports ((splitArray c).1.takeWhile (· != '\\'))

theorem resolveCandidate_of_none (h : importOf? imports c = none) : resolveCandidate imports c = c := by
  unfold importOf? at h
  unfold resolveCandidate
  split
  · rfl
  · rename_i hbare
    rw [if_neg hbare] at h
    simp only [h]

theorem resolveCandidate_of_some (h : importOf? imports c = some i) :
    resolveCandidate imports c = continuePath i.path (splitArray c).1 ++ (splitArray c).2 := by
  unfold importOf? at h
  unfold resolveCandidate
  split
  · rename_i hbare
    rw [if_pos hbare] at h
    cases h
  · rename_i hbare
    rw [if_neg hbare] at h
    simp only [h]

theorem isClassReference_of_importOf? (h : importOf? imports c = some i) : isClassReference c = true := by
  unfold importOf? at h
  split at h
  · cases h
  · rename_i hbare
    simpa using (not_or.mp (not_or.mp hbare).2).2

theorem mem_of_importOf? (h : importOf? imports c = some i) : i ∈ imports := by
  unfold importOf? at h
  split at h
  · cases h
  · exact List.mem_of_find?_eq_some h

theorem splitArray_fst_append_snd (s : Text) : (splitArray s).1 ++ (splitArray s).2 = s := by
  unfold splitArray
  split
  · rename_i base hbase
    exact (Text.eq_append_of_dropSuffix? hbase).symm
  · exact List.append_nil s

theorem splitArray_append (s : Text) : splitArray (s ++ "[]") = (s, ("[]" : Text)) := by
  rw [splitArray, Text.dropSuffix?_append]

theorem splitArray_eq_self (h : ∀ x ∈ s.getLast?, isBracket x = false) : splitArray s = (s, []) := by
  have hnone : Text.dropSuffix? "[]" s = none := by
    rw [Text.dropSuffix?, Option.map_eq_none_iff]
    rw [← List.head?_reverse] at h
    cases hrev : s.reverse with
    | nil => rfl
    | cons x rest =>
        rw [hrev] at h
        have hx : ']' ≠ x := by
          rintro rfl
          cases h _ rfl
        simp [Text.dropPrefix?, hx]
  rw [splitArray, hnone]

theorem head?_path_append (hi : i.Plain) (s : Text) : (i.path ++ s).head? = some '\\' := by
  obtain ⟨p, hp, _⟩ := hi.exists_eq
  rw [hp]
  rfl

theorem isCandidate_path_append (hi : i.Plain) (hs : ∀ x ∈ s, Text.isBlank x = false ∧ isSeparator x = false) :
    IsCandidate (i.path ++ s) := by
  have hlast : ∀ x ∈ (i.path ++ s).getLast?, Text.isBlank x = false := by
    intro x hx
    rw [Option.mem_def, List.getLast?_append, Option.or_eq_some_iff] at hx
    rcases hx with hx | ⟨_, hx⟩
    · exact (hs x (List.mem_of_getLast? hx)).1
    · have hshown := ClassName.stripped_display i.path
      rw [hi.shown] at hshown
      exact hshown.last x hx
  have hhead : ∀ x ∈ (i.path ++ s).head?, Text.isBlank x = false := by
    intro x hx
    rw [head?_path_append hi, Option.mem_some_iff] at hx
    subst hx
    decide
  refine ⟨fun hnil => ?_, Text.Stripped.strip_eq ⟨hhead, hlast⟩, ?_⟩
  · have hfirst := head?_path_append hi s
    rw [hnil] at hfirst
    cases hfirst
  · exact hi.unseparated.append fun x hx => (hs x hx).2

theorem display_path_append (hi : i.Plain) (hs : ∀ x ∈ s.getLast?, ClassName.isOuter x = false) :
    ClassName.display (i.path ++ s) = i.path ++ s := by
  obtain ⟨p, hp, hne, hstripped⟩ := hi.exists_eq
  rw [hp, List.cons_append]
  refine ClassName.display_of_stripped ⟨fun x hx => ?_, fun x hx => ?_⟩
  · rw [Option.mem_def, List.head?_append_of_ne_nil _ hne] at hx
    exact hstripped.head x hx
  · rw [Option.mem_def, List.getLast?_append, Option.or_eq_some_iff] at hx
    rcases hx with hx | ⟨_, hx⟩
    · exact hs x hx
    · exact hstripped.last x hx

/-- An imported name is resolved to one candidate, an absolute name. -/
theorem isCandidate_resolveCandidate (himports : ∀ i ∈ imports, i.Plain) (h : importOf? imports c = some i)
    (hc : ∀ x ∈ c, Text.isBlank x = false ∧ isSeparator x = false) :
    IsCandidate (resolveCandidate imports c) ∧ (resolveCandidate imports c).head? = some '\\' := by
  have hi := himports i (mem_of_importOf? h)
  have hmem : ∀ x ∈ (splitArray c).1.dropWhile (· != '\\') ++ (splitArray c).2, x ∈ c := by
    intro x hx
    rw [← splitArray_fst_append_snd c]
    rcases List.mem_append.mp hx with hx | hx
    · exact List.mem_append_left _ ((List.dropWhile_suffix _).subset hx)
    · exact List.mem_append_right _ hx
  rw [resolveCandidate_of_some h, continuePath, List.append_assoc]
  exact ⟨isCandidate_path_append hi fun x hx => hc x (hmem x hx), head?_path_append hi _⟩

theorem takeWhile_append_of_mem (h : '\\' ∈ name) (s : Text) :
    (name ++ s).takeWhile (· != '\\') = name.takeWhile (· != '\\') ∧
      (name ++ s).dropWhile (· != '\\') = name.dropWhile (· != '\\') ++ s := by
  induction name with
  | nil => cases h
  | cons x name ih =>
      by_cases hx : x = '\\'
      · simp [hx]
      · have hmem : '\\' ∈ name := by
          rcases List.mem_cons.mp h with heq | h
          · exact absurd heq.symm hx
          · exact h
        simp [hx, ih hmem]

theorem takeWhile_of_notMem (h : '\\' ∉ s) : s.takeWhile (· != '\\') = s ∧ s.dropWhile (· != '\\') = [] := by
  have hall : ∀ x ∈ s, (x != '\\') = true := by
    intro x hx
    rw [bne_iff_ne]
    rintro rfl
    exact h hx
  exact ⟨List.takeWhile_eq_self_iff.mpr hall, List.dropWhile_eq_nil_iff.mpr hall⟩

theorem backslash_notMem_brackets : '\\' ∉ brackets n := by
  intro h
  cases isBracket_of_mem_brackets h

section

variable (h : IsBareName name)

include h

theorem IsBareName.splitArray_eq : splitArray name = (name, []) :=
  splitArray_eq_self fun x hx => (isPathChar_iff.mp (h.chars x (List.mem_of_getLast? hx))).2.2.1

theorem importOf?_eq_find? :
    importOf? imports (name ++ brackets n) =
      Import.find? imports ((splitArray (name ++ brackets n)).1.takeWhile (· != '\\')) := by
  obtain ⟨x, hx, hslash, hmark, _⟩ := h.head_append (brackets n)
  rw [importOf?, if_neg]
  simp [hx, hslash, hmark, h.isClassReference_brackets n]

/-- The import of a name is looked up under its first segment.  Two bracket pairs hide it if there is no other. -/
theorem importOf?_brackets (himports : ∀ i ∈ imports, i.Plain) (n : Nat) :
    importOf? imports (name ++ brackets n) =
      if 2 ≤ n ∧ '\\' ∉ name then none else Import.find? imports (name.takeWhile (· != '\\')) := by
  rw [importOf?_eq_find? h]
  match n with
  | 0 => simp [brackets, h.splitArray_eq]
  | n + 1 =>
      rw [brackets_succ, ← List.append_assoc, splitArray_append]
      by_cases hslash : '\\' ∈ name
      · rw [(takeWhile_append_of_mem hslash _).1, if_neg fun hc => hc.2 hslash]
      · cases n with
        | zero => simp [brackets]
        | succ n =>
            have hnone : '\\' ∉ name ++ brackets (n + 1) := by
              rw [List.mem_append, not_or]
              exact ⟨hslash, backslash_notMem_brackets⟩
            rw [(takeWhile_of_notMem hnone).1, if_pos ⟨by omega, hslash⟩]
            refine Import.find?_eq_none_of_bracket himports ?_
            rw [brackets_succ]
            simp

/-- The path of the import takes the place of the first segment; the bracket pairs stay. -/
theorem resolveCandidate_brackets (hi : importOf? imports (name ++ brackets n) = some i)
    (himports : ∀ i ∈ imports, i.Plain) :
    resolveCandidate imports (name ++ brackets n) = i.path ++ (name.dropWhile (· != '\\') ++ brackets n) := by
  rw [resolveCandidate_of_some hi, continuePath]
  match n with
  | 0 => simp [brackets, h.splitArray_eq]
  | n + 1 =>
      have hshallow : ¬(2 ≤ n + 1 ∧ '\\' ∉ name) := by
        intro hdeep
        rw [importOf?_brackets h himports, if_pos hdeep] at hi
        cases hi
      have hrest : (name ++ brackets n).dropWhile (· != '\\') = name.dropWhile (· != '\\') ++ brackets n := by
        by_cases hslash : '\\' ∈ name
        · exact (takeWhile_append_of_mem hslash _).2
        · have hn : n = 0 := by
            by_contra hn
            exact hshallow ⟨by omega, hslash⟩
          simp [hn, brackets]
      rw [brackets_succ, ← List.append_assoc, splitArray_append, hrest]
      simp

end

end TypeUnion

end ApiPages
