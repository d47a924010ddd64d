import ApiPages.Proofs.Correspondence

/-! # Names that mean the same class

The form of a name that is shown and the form by which it is looked up forget the same things: characters around the
name, and, for the second one, letter case.  So both are normal forms, and the name of a class is compared with another
name as their keys are (`name_forms_agree`).  The form that is shown is put together again from its namespace and its
last segment (`display_of_parts`). -/

namespace ApiPages

namespace ClassName

variable {name ns segment : Text}

/-! ### Normal forms -/

theorem isOuter_toLower (c : Char) : isOuter c.toLower = isOuter c := by
  have hslash : (c.toLower == '\\') = (c == '\\') := isBackslash_toLower c
  rw [isOuter, hslash, Text.isBlank_toLower, ← isOuter]

theorem key_key (name : Text) : key (key name) = key name := by
  unfold key
  rw [Text.strip_lower isOuter_toLower, Text.strip_strip, Text.lower_lower]

/-! ### Parts -/

theorem stripped_backslash (name : Text) : Text.Stripped isBackslash (Text.strip isOuter name) where
  head c hc := (Bool.or_eq_false_iff.mp ((Text.stripped_strip isOuter name).head c hc)).1
  last c hc := (Bool.or_eq_false_iff.mp ((Text.stripped_strip isOuter name).last c hc)).1

theorem trim_display (name : Text) : Text.trim (display name) = display name :=
  (stripped_display name).strip_eq

/-- The namespace of a name is what stands before the last backslash inside it. -/
theorem namespaceOf_display (name : Text) :
    namespaceOf (display name) = Text.join ['\\'] ((Text.strip isOuter name).splitOn '\\').dropLast := by
  rw [namespaceOf, trim_display, display, Text.strip_cons_of_pos (by decide), (stripped_backslash name).strip_eq]

theorem IsQualifier.cons {q : Text} (hq : IsQualifier q) : IsQualifier ('\\' :: q) := by
  rcases hq with rfl | ⟨before, rfl⟩
  · exact .inr ⟨[], rfl⟩
  · exact .inr ⟨'\\' :: before, rfl⟩

theorem IsQualifier.short_display {q : Text} (hq : IsQualifier q) (hsegment : '\\' ∉ segment)
    (h : Text.strip isOuter name = q ++ segment) : short (display name) = segment := by
  rw [short, trim_display, display]
  by_cases hname : Text.strip isOuter name = []
  · -- a name of nothing but backslashes and white space is shown as one backslash
    obtain ⟨-, rfl⟩ := List.append_eq_nil_iff.mp (h ▸ hname)
    rw [hname]
    rfl
  · have hkept : Text.dropEndWhile isBackslash ('\\' :: Text.strip isOuter name) = '\\' :: Text.strip isOuter name := by
      refine Text.dropEndWhile_eq_self fun c hc => (stripped_backslash name).last c ?_
      rwa [Option.mem_def, ← List.singleton_append, List.getLast?_append_of_ne_nil _ hname] at hc
    rw [hkept, h, ← List.cons_append, hq.cons.getLastD_splitOn hsegment]

/-- The form that is shown is a backslash, the namespace with another one if there is any, and the last segment. -/
theorem display_of_parts (name : Text) :
    '\\' ∉ short (display name) ∧
    display name =
      if namespaceOf (display name) = [] then '\\' :: short (display name)
      else '\\' :: namespaceOf (display name) ++ '\\' :: short (display name) := by
  obtain ⟨q, segment, hname, hq, hsegment⟩ := exists_qualifier (Text.strip isOuter name)
  have hshort := hq.short_display hsegment hname
  have hns := namespaceOf_display name
  rw [hname] at hns
  rcases hq with rfl | ⟨before, rfl⟩
  · rw [List.nil_append, List.splitOn_eq_singleton hsegment] at hns
    have hshown : display name = '\\' :: segment := by rw [display, hname, List.nil_append]
    rw [hshort, hns]
    exact ⟨hsegment, hshown⟩
  · rw [List.append_assoc, List.singleton_append, List.splitOn_append_cons_self, List.splitOn_eq_singleton hsegment,
      List.dropLast_concat, Text.join, List.intercalate_splitOn] at hns
    have hne : before ≠ [] := by
      rintro rfl
      have hhead := (stripped_backslash name).head '\\'
      rw [hname] at hhead
      cases hhead rfl
    have hshown : display name = '\\' :: before ++ '\\' :: segment := by
      rw [display, hname, List.append_assoc, List.singleton_append, List.cons_append]
    rw [hshort, hns, if_neg hne]
    exact ⟨hsegment, hshown⟩

/-- **Both forms of a name tell the same names apart.**  Each of them is its own form, and the form that is shown has the
key of the name.  It is put together from its namespace, if it has one, and its last segment, in which there is no
backslash.  And a class is the one of a name exactly if that name has the key of the class. -/
theorem name_forms_agree (n m : Text) :
    display (display n) = display n ∧ key (key n) = key n ∧ key (display n) = key n ∧
    '\\' ∉ short (display n) ∧
    (display n =
      if namespaceOf (display n) = [] then '\\' :: short (display n)
      else '\\' :: namespaceOf (display n) ++ '\\' :: short (display n)) ∧
    ((ClassDoc.ofName n).isNamed m = true ↔ key n = key m) := by
  have hsame : (ClassDoc.ofName n).isNamed m = true ↔ key n = key m := by
    rw [ClassDoc.isNamed_ofName, beq_iff_eq, eq_comm]
  obtain ⟨hshort, hparts⟩ := display_of_parts n
  exact ⟨display_display n, key_key n, key_display n, hshort, hparts, hsame⟩

example : display " \\\\ Acme\\\\Shop\\ Item \\ " = "\\Acme\\\\Shop\\ Item".toList ∧
    namespaceOf "\\Acme\\\\Shop\\ Item" = "Acme\\\\Shop".toList ∧
    key " \\\\ Acme\\\\Shop\\ Item \\ " = "acme\\\\shop\\ item".toList := by
  decide +kernel

end ClassName

end ApiPages
