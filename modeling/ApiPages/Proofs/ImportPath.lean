import ApiPages.Proofs.ImportScan
import ApiPages.Proofs.ImportedName

/-! # The paths of imports

An item is imported only if it is a path of letters, digits, underscores and backslashes, so its own path is a class path
(`exists_name_of_ofItem?`).  What stands before the brace of a group is put in front of it without such a test.  It may be
anything: the variables of a closure, or the traits of a class.  So the path of an import is a class path unless the text
before a brace is none, and then the imports of the group have that text in their paths (`ofSource_class_paths`,
`closure_variables_imported`). -/

namespace ApiPages

namespace Import

variable {i j : Import} {c : Char} {s t item group path : Text}

/-! ### Characters of paths -/

theorem isPath_iff : isPath s = true ↔ ∀ c ∈ s, c.isAlphanum = true ∨ c = '_' ∨ c = '\\' := by
  rw [isPath, List.all_eq_true]
  refine forall₂_congr fun c _ => ?_
  by_cases hc : c = '$'
  · subst hc
    decide
  · simp [isIdentifierChar, hc, or_assoc]

theorem isPath_append : isPath (s ++ t) = true ↔ isPath s = true ∧ isPath t = true := by
  rw [isPath_iff, isPath_iff, isPath_iff, List.forall_mem_append]

theorem isPath_of_subset (hs : isPath s = true) (h : ∀ c ∈ t, c ∈ s) : isPath t = true :=
  isPath_iff.mpr fun c hc => isPath_iff.mp hs c (h c hc)

theorem toNat_of_isAlphanum (h : c.isAlphanum = true) : 48 ≤ c.toNat ∧ c.toNat ≤ 122 := by
  rcases Bool.or_eq_true_iff.mp h with hletter | hdigit
  · rcases Bool.or_eq_true_iff.mp hletter with hupper | hlower
    · obtain ⟨hA, hZ⟩ : 65 ≤ c.toNat ∧ c.toNat ≤ 90 := of_decide_eq_true hupper
      omega
    · obtain ⟨ha, hz⟩ := Bool.and_eq_true_iff.mp hlower
      have ha : 97 ≤ c.toNat := of_decide_eq_true ha
      have hz : c.toNat ≤ 122 := of_decide_eq_true hz
      omega
  · obtain ⟨hzero, hnine⟩ := Bool.and_eq_true_iff.mp hdigit
    have hzero : 48 ≤ c.toNat := of_decide_eq_true hzero
    have hnine : c.toNat ≤ 57 := of_decide_eq_true hnine
    omega

theorem isBlank_of_isIdentifierChar (h : isIdentifierChar c = true) : Text.isBlank c = false := by
  have hbounds : 36 ≤ c.toNat ∧ c.toNat ≤ 122 := by
    simp only [isIdentifierChar, Bool.or_eq_true, beq_iff_eq] at h
    rcases h with ((h | rfl) | rfl) | rfl
    · have := toNat_of_isAlphanum h
      omega
    all_goals decide
  have hne : ¬ Text.isBlank c = true := by
    simp only [Text.isBlank, Bool.or_eq_true, Bool.and_eq_true, decide_eq_true_eq, beq_iff_eq]
    omega
  exact Bool.eq_false_iff.mpr hne

theorem isBlank_of_isPath (h : isPath s = true) : ∀ c ∈ s, Text.isBlank c = false :=
  fun c hc => isBlank_of_isIdentifierChar (isIdentifierChar_of_isPath h c hc)

/-! ### Class paths -/

/-- A backslash and then nothing but letters, digits, underscores and backslashes. -/
def IsClassPath (path : Text) : Prop :=
  ∃ rest, path = '\\' :: rest ∧ ∀ c ∈ rest, c.isAlphanum = true ∨ c = '_' ∨ c = '\\'

theorem isClassPath_cons_iff : IsClassPath ('\\' :: s) ↔ isPath s = true := by
  rw [isPath_iff]
  constructor
  · rintro ⟨rest, heq, h⟩
    cases heq
    exact h
  · intro h
    exact ⟨s, rfl, h⟩

theorem isClassPath_display_iff : IsClassPath (ClassName.display s) ↔ isPath (Text.strip ClassName.isOuter s) = true :=
  isClassPath_cons_iff

/-- The path of an item is a class path without backslashes at the end. -/
theorem exists_name_of_ofItem? (h : ofItem? item = some j) :
    ∃ name, j.path = '\\' :: name ∧ isPath name = true ∧ Text.Stripped ClassName.isOuter name := by
  obtain ⟨path, hj, hpath, _⟩ := exists_path_of_ofItem? h
  exact ⟨Text.strip ClassName.isOuter path, hj, isPath_of_subset hpath fun _ => Text.mem_of_mem_strip,
    Text.stripped_strip _ _⟩

/-! ### Groups -/

/-- The text before a group makes class paths of the items below it, or of one that adds nothing to it. -/
def MakesClassPath (group path : Text) : Prop :=
  isPath (group.dropWhile ClassName.isOuter) = true ∨
    path = ClassName.display group ∧ isPath (Text.strip ClassName.isOuter group) = true

theorem path_under (h : ofItem? item = some j) (group : Text) :
    (under group j).path = ClassName.display (group ++ j.path) := by
  obtain ⟨name, hj, _, hname⟩ := exists_name_of_ofItem? h
  have hdrop : name.dropWhile ClassName.isBackslash = name :=
    Text.dropWhile_eq_self fun c hc => (Bool.or_eq_false_iff.mp (hname.head c hc)).1
  rw [under, hj, List.dropWhile_cons_of_pos (by decide), hdrop]

/-- An item with a name keeps all of the group but the backslashes and the white space at its beginning. -/
theorem isPath_strip_append {name : Text} (hpath : isPath name = true) (hname : Text.Stripped ClassName.isOuter name)
    (hne : name ≠ []) : isPath (Text.strip ClassName.isOuter (group ++ '\\' :: name)) = true ↔
      isPath (group.dropWhile ClassName.isOuter) = true := by
  have hlast : ∀ c ∈ (group ++ '\\' :: name).getLast?, ClassName.isOuter c = false := by
    intro c hc
    rw [Option.mem_def, List.getLast?_append_of_ne_nil _ (List.cons_ne_nil _ _), List.getLast?_cons,
      List.getLast?_eq_some_getLast hne, Option.getD_some] at hc
    exact hname.last c ((List.getLast?_eq_some_getLast hne).trans hc)
  rw [Text.strip_eq_dropWhile hlast, List.dropWhile_append]
  split
  · rename_i hempty
    rw [List.isEmpty_iff.mp hempty, List.dropWhile_cons_of_pos (by decide), Text.dropWhile_eq_self hname.head]
    exact iff_of_true hpath rfl
  · rw [isPath_append, and_iff_left]
    exact isPath_iff.mpr (List.forall_mem_cons.mpr ⟨.inr (.inr rfl), isPath_iff.mp hpath⟩)

theorem isClassPath_under_iff (h : ofItem? item = some j) (group : Text) :
    IsClassPath (under group j).path ↔ MakesClassPath group (under group j).path := by
  have hback : (under group j).path = ClassName.display group ∧ isPath (Text.strip ClassName.isOuter group) = true →
      IsClassPath (under group j).path := by
    rintro ⟨heq, hpath⟩
    rw [heq]
    exact isClassPath_display_iff.mpr hpath
  have hunder := path_under h group
  obtain ⟨name, hj, hpath, hname⟩ := exists_name_of_ofItem? h
  rw [hj] at hunder
  by_cases hne : name = []
  · -- the item is a backslash and adds nothing to the path of the group
    have hshown : (under group j).path = ClassName.display group := by
      rw [hunder, hne, ClassName.display, Text.strip_concat_of_pos (by decide), ← ClassName.display]
    have hkept : isPath (group.dropWhile ClassName.isOuter) = true →
        isPath (Text.strip ClassName.isOuter group) = true :=
      fun hgroup => isPath_of_subset hgroup fun _ => Text.mem_of_mem_dropEndWhile
    constructor
    · intro hclass
      rw [hshown, isClassPath_display_iff] at hclass
      exact .inr ⟨hshown, hclass⟩
    · rintro (hgroup | hgroup)
      · exact hback ⟨hshown, hkept hgroup⟩
      · exact hback hgroup
  · have hclass : IsClassPath (under group j).path ↔ isPath (group.dropWhile ClassName.isOuter) = true := by
      rw [hunder, isClassPath_display_iff, isPath_strip_append hpath hname hne]
    exact ⟨fun h => .inl (hclass.mp h), fun h => h.elim hclass.mpr hback⟩

/-- An import is a class path exactly if the group that it is in, if any, makes it one. -/
theorem isClassPath_iff_of_mem_ofStatement (hi : i ∈ ofStatement s) :
    IsClassPath i.path ↔ ∀ group ∈ groupOf? s, MakesClassPath group i.path := by
  rcases cases_of_mem_ofStatement hi with ⟨hnone, item, hitem⟩ | ⟨group, item, inner, hsome, hinner, rfl⟩
  · obtain ⟨name, hpath, hname, _⟩ := exists_name_of_ofItem? hitem
    rw [hpath, isClassPath_cons_iff, hnone]
    exact iff_of_true hname (by simp)
  · rw [hsome, isClassPath_under_iff hinner]
    simp

/-- A character before the brace that is neither part of a name nor white space stays in the path. -/
theorem not_makesClassPath (hc : c ∈ group) (hblank : Text.isBlank c = false) (hpath : isPath [c] = false) :
    ¬ MakesClassPath group path := by
  have houter : ClassName.isOuter c = false := by
    rw [ClassName.isOuter, hblank, Bool.or_false, beq_eq_false_iff_ne]
    rintro rfl
    cases hpath
  have hstrip : c ∈ Text.strip ClassName.isOuter group := Text.mem_strip hc houter
  have hnot (s : Text) (hs : c ∈ s) : ¬ isPath s = true := by
    intro hs'
    have hone := isPath_of_subset hs' (t := [c]) (by simpa using hs)
    rw [hpath] at hone
    cases hone
  rintro (h | ⟨_, h⟩)
  · exact hnot _ (Text.mem_of_mem_dropEndWhile hstrip) h
  · exact hnot _ hstrip h

/-- **Which imports are class paths.**  Each import comes from a statement.  Outside of groups its path is a class path.
In a group it is one exactly if the text before the brace makes it one: always if that text is a path itself, and never if
there is a character in it that is neither part of a name nor white space. -/
theorem ofSource_class_paths (source : Text) :
    (∀ i ∈ ofSource source, ∃ s ∈ statements source, i ∈ ofStatement s ∧
      (IsClassPath i.path ↔ ∀ group ∈ groupOf? s, MakesClassPath group i.path)) ∧
    ((∀ s ∈ statements source, ∀ group ∈ groupOf? s, isPath group = true) →
      ∀ i ∈ ofSource source, IsClassPath i.path) ∧
    ∀ s ∈ statements source, ∀ group ∈ groupOf? s, ∀ c ∈ group, Text.isBlank c = false → isPath [c] = false →
      ∀ i ∈ ofStatement s, i ∈ ofSource source ∧ ¬ IsClassPath i.path := by
  rw [ofSource_eq_flatMap]
  refine ⟨fun i hi => ?_, fun hgroups i hi => ?_, fun s hs group hgroup c hc hblank hpath i hi => ?_⟩
  · obtain ⟨s, hs, hi⟩ := List.mem_flatMap.mp hi
    exact ⟨s, hs, hi, isClassPath_iff_of_mem_ofStatement hi⟩
  · obtain ⟨s, hs, hi⟩ := List.mem_flatMap.mp hi
    refine (isClassPath_iff_of_mem_ofStatement hi).mpr fun group hgroup => .inl ?_
    exact isPath_of_subset (hgroups s hs group hgroup) fun _ hc => (List.dropWhile_suffix _).subset hc
  · refine ⟨List.mem_flatMap.mpr ⟨s, hs, hi⟩, fun hclass => ?_⟩
    exact not_makesClassPath hc hblank hpath ((isClassPath_iff_of_mem_ofStatement hi).mp hclass group hgroup)

/-- A class that is imported, a closure that returns at once, and a class that uses two traits under another name. -/
def closures : Text :=
  "use Acme\\\x7bFoo\x7d;$f = function () use ($x) \x7b return; \x7d;class C \x7b use A, B \x7b run as go; \x7d \x7d"

theorem statements_closures :
    statements closures = ["Acme\\\x7bFoo\x7d", "($x) \x7b return", "A, B \x7b run as go"].map String.toList := by
  decide +kernel

/-- The import of the group is a class path.  The variable of the closure and the two traits are not, and each of them is
put before a word of the block after it. -/
theorem closures_class_paths :
    (ofSource closures).map Import.path =
      ["\\Acme\\Foo", "\\($x)\\return", "\\A, B\\run"].map String.toList ∧
    (∃ i ∈ ofSource closures, i.path = "\\Acme\\Foo".toList ∧ IsClassPath i.path) ∧
    ∃ i ∈ ofSource closures, i.path = "\\($x)\\return".toList ∧ ¬ IsClassPath i.path := by
  obtain ⟨heach, _, hother⟩ := ofSource_class_paths closures
  have hsource : ofSource closures =
      [⟨"\\Acme\\Foo", none⟩, ⟨"\\($x)\\return", none⟩, ⟨"\\A, B\\run", some "go"⟩] := by
    rw [ofSource_eq_flatMap, statements_closures]
    decide +kernel
  rw [statements_closures] at heach hother
  refine ⟨by rw [hsource]; rfl, ⟨⟨"\\Acme\\Foo", none⟩, by simp [hsource], rfl, ?_⟩, ?_⟩
  · obtain ⟨s, hs, hi, hiff⟩ := heach ⟨"\\Acme\\Foo", none⟩ (by simp [hsource])
    have hgroups : ∀ s ∈ ["Acme\\\x7bFoo\x7d", "($x) \x7b return", "A, B \x7b run as go"].map String.toList,
        (⟨"\\Acme\\Foo", none⟩ : Import) ∈ ofStatement s →
        ∀ group ∈ groupOf? s, isPath (group.dropWhile ClassName.isOuter) = true := by decide +kernel
    exact hiff.mpr fun group hgroup => .inl (hgroups s hs hi group hgroup)
  · obtain ⟨hreturn, hclass⟩ := hother "($x) \x7b return" (by decide) "($x)" (by decide) '(' (by decide)
      (by decide) (by decide) ⟨"\\($x)\\return", none⟩ (by decide +kernel)
    exact ⟨_, hreturn, rfl, hclass⟩

/-- A closure that takes a variable along and returns at once. -/
def closure : Text :=
  "<?php\n$f = function () use ($x) \x7b return; \x7d;\n"

/-- The variable of a closure is taken for the path of a group. -/
theorem closure_variables_imported :
    ofSource closure = [⟨"\\($x)\\return".toList, none⟩] ∧ ¬ ∀ i ∈ ofSource closure, IsClassPath i.path := by
  have himports : ofSource closure = [⟨"\\($x)\\return".toList, none⟩] := by decide +kernel
  refine ⟨himports, fun h => ?_⟩
  have hclass := h ⟨"\\($x)\\return".toList, none⟩ (himports ▸ List.mem_singleton_self _)
  exact absurd (isClassPath_cons_iff.mp hclass) (by decide)

end Import

end ApiPages
