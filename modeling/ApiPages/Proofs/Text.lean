import Mathlib.Data.List.DropRight
import Mathlib.Data.List.Induction
import ApiPages.Text.Basic

/-! # Stripped, cut and joined texts

`strip` leaves a text without unwanted characters at its ends (`Stripped`), and such a text as it is.  What does not
depend on one such character at an end does not depend on stripping at all (`apply_strip`, `map_splitOnP_strip`).  Pieces
without a separator that are joined by one are cut out again as they were (`splitOnP_join`). -/

namespace ApiPages

namespace Text

variable {p : Char → Bool} {s t : Text}

/-! ### Both ends -/

/-- The first and the last character of a text do not satisfy `p`. -/
structure Stripped (p : Char → Bool) (s : Text) : Prop where
  head : ∀ c ∈ s.head?, p c = false
  last : ∀ c ∈ s.getLast?, p c = false

theorem dropEndWhile_eq_rdropWhile (p : Char → Bool) (s : Text) : dropEndWhile p s = s.rdropWhile p :=
  rfl

theorem mem_head?_of_prefix {c : Char} (h : s <+: t) (hc : c ∈ s.head?) : c ∈ t.head? := by
  obtain ⟨rest, rfl⟩ := h
  rw [Option.mem_def] at hc ⊢
  rw [List.head?_append, hc]
  rfl

theorem stripped_strip (p : Char → Bool) (s : Text) : Stripped p (strip p s) where
  head c hc := by
    have hd := List.head?_dropWhile_not p s
    have hm : c ∈ (s.dropWhile p).head? := mem_head?_of_prefix (List.rdropWhile_prefix p _) hc
    rw [Option.mem_def] at hm
    rw [hm] at hd
    exact hd
  last c hc := by
    rw [strip, dropEndWhile_eq_rdropWhile] at hc
    obtain ⟨hne, rfl⟩ := List.mem_getLast?_eq_getLast hc
    exact Bool.eq_false_iff.mpr (List.rdropWhile_last_not p _ hne)

theorem dropWhile_eq_self (h : ∀ c ∈ s.head?, p c = false) : s.dropWhile p = s := by
  cases s with
  | nil => rfl
  | cons c s => exact List.dropWhile_cons_of_neg (Bool.eq_false_iff.mp (h c rfl))

theorem dropEndWhile_eq_self (h : ∀ c ∈ s.getLast?, p c = false) : dropEndWhile p s = s := by
  rw [dropEndWhile_eq_rdropWhile, List.rdropWhile_eq_self_iff]
  intro hne
  exact Bool.eq_false_iff.mp (h _ (List.getLast?_eq_some_getLast hne))

theorem Stripped.strip_eq (h : Stripped p s) : strip p s = s := by
  rw [strip, dropWhile_eq_self h.head, dropEndWhile_eq_self h.last]

theorem strip_strip (p : Char → Bool) (s : Text) : strip p (strip p s) = strip p s :=
  (stripped_strip p s).strip_eq

theorem trim_trim (s : Text) : trim (trim s) = trim s :=
  strip_strip isBlank s

theorem stripped_trim (s : Text) : Stripped isBlank (trim s) :=
  stripped_strip isBlank s

theorem trim_eq_self (h : ∀ c ∈ s, isBlank c = false) : trim s = s :=
  Stripped.strip_eq ⟨fun c hc => h c (List.mem_of_mem_head? hc), fun c hc => h c (List.mem_of_getLast? hc)⟩

/-- Nothing is left of a text in which all characters are unwanted. -/
theorem strip_eq_nil_iff : strip p s = [] ↔ ∀ c ∈ s, p c = true := by
  rw [strip, dropEndWhile_eq_rdropWhile, List.rdropWhile_eq_nil_iff, ← List.dropWhile_eq_nil_iff,
    List.dropWhile_idempotent, List.dropWhile_eq_nil_iff]

theorem mem_of_mem_strip {c : Char} (h : c ∈ strip p s) : c ∈ s :=
  (List.dropWhile_suffix p).subset ((List.rdropWhile_prefix p _).subset h)

/-- A character that is not stripped stays. -/
theorem mem_strip {c : Char} (hc : c ∈ s) (hp : p c = false) : c ∈ strip p s := by
  have hne : ¬ p c = true := Bool.eq_false_iff.mp hp
  have hfront : c ∈ s.dropWhile p := by
    rw [← List.takeWhile_append_dropWhile (p := p) (l := s), List.mem_append] at hc
    exact hc.resolve_left fun hc => hne (List.mem_takeWhile_imp hc)
  rw [← List.rdropWhile_append_rtakeWhile (p := p) (l := s.dropWhile p), List.mem_append] at hfront
  exact hfront.resolve_right fun hc => hne (List.mem_rtakeWhile_imp hc)

/-- A character that is stripped may stand in front. -/
theorem strip_cons_of_pos {c : Char} (hc : p c = true) (s : Text) : strip p (c :: s) = strip p s := by
  rw [strip, List.dropWhile_cons_of_pos hc, strip]

/-- A character that is stripped may stand at the end. -/
theorem strip_concat_of_pos {c : Char} (hc : p c = true) (s : Text) : strip p (s ++ [c]) = strip p s := by
  unfold strip
  rw [dropEndWhile_eq_rdropWhile, dropEndWhile_eq_rdropWhile, List.dropWhile_append]
  by_cases hs : s.dropWhile p = []
  · simp [hs, hc]
  · rw [if_neg (by simpa using hs), List.rdropWhile_concat_pos _ _ _ hc]

theorem getLast?_dropWhile (h : ∀ c ∈ s.getLast?, p c = false) : (s.dropWhile p).getLast? = s.getLast? := by
  by_cases hd : s.dropWhile p = []
  · -- All characters would satisfy `p`, also the last one.
    have hall := List.dropWhile_eq_nil_iff.mp hd
    cases hl : s.getLast? with
    | none => rw [hd, List.getLast?_nil]
    | some c =>
        have hc := h c hl
        rw [hall c (List.mem_of_getLast? hl)] at hc
        cases hc
  · have hs := List.takeWhile_append_dropWhile (p := p) (l := s)
    rw [← List.getLast?_append_of_ne_nil (s.takeWhile p) hd, hs]

theorem strip_eq_dropWhile (h : ∀ c ∈ s.getLast?, p c = false) : strip p s = s.dropWhile p := by
  rw [strip, dropEndWhile_eq_self]
  rwa [getLast?_dropWhile h]

theorem dropEndWhile_append_of_forall (h : ∀ c ∈ t, p c = true) (s : Text) :
    dropEndWhile p (s ++ t) = dropEndWhile p s := by
  have hnil : t.reverse.dropWhile p = [] :=
    List.dropWhile_eq_nil_iff.mpr fun c hc => h c (List.mem_reverse.mp hc)
  simp only [dropEndWhile, List.reverse_append, List.dropWhile_append, hnil, List.isEmpty_nil, if_true]

theorem dropEndWhile_append_of_exists (h : ∃ c ∈ t, p c = false) (s : Text) :
    dropEndWhile p (s ++ t) = s ++ dropEndWhile p t := by
  obtain ⟨c, hc, hpc⟩ := h
  have hne : (t.reverse.dropWhile p).isEmpty = false := by
    rw [List.isEmpty_eq_false_iff, ne_eq, List.dropWhile_eq_nil_iff]
    intro hall
    rw [hall c (List.mem_reverse.mpr hc)] at hpc
    cases hpc
  simp [dropEndWhile, List.dropWhile_append, hne]

theorem dropEndWhile_cons {x : Char} (hx : p x = false) (s : Text) :
    dropEndWhile p (x :: s) = x :: dropEndWhile p s := by
  simp only [dropEndWhile, List.reverse_cons, List.dropWhile_append]
  split
  · rename_i hnil
    rw [List.isEmpty_iff.mp hnil, List.dropWhile_cons_of_neg (by simp [hx])]
    rfl
  · simp

theorem strip_append_of_forall (h : ∀ c ∈ t, p c = true) (s : Text) : strip p (s ++ t) = strip p s := by
  induction t using List.reverseRecOn with
  | nil => rw [List.append_nil]
  | append_singleton t c ih =>
      obtain ⟨ht, hc⟩ := List.forall_mem_append.mp h
      rw [← List.append_assoc, strip_concat_of_pos (hc c (List.mem_singleton_self c)), ih ht]

theorem strip_forall_append (h : ∀ c ∈ t, p c = true) (s : Text) : strip p (t ++ s) = strip p s := by
  rw [strip, List.dropWhile_append_of_pos h, strip]

theorem strip_ne_nil_iff : strip p s ≠ [] ↔ ∃ c ∈ s, p c = false := by
  simp [strip_eq_nil_iff]

theorem mem_of_mem_dropEndWhile {c : Char} (h : c ∈ dropEndWhile p s) : c ∈ s :=
  (List.rdropWhile_prefix p s).subset h

theorem dropEndWhile_ne_nil (h : ∃ c ∈ s, p c = false) : dropEndWhile p s ≠ [] := by
  obtain ⟨c, hc, hpc⟩ := h
  rw [dropEndWhile_eq_rdropWhile, ne_eq, List.rdropWhile_eq_nil_iff]
  intro hall
  rw [hall c hc] at hpc
  cases hpc

/-- What follows the last character that satisfies `p`. -/
theorem exists_last_piece (p : Char → Bool) (s : Text) :
    (∀ x ∈ s, p x = false) ∨
      ∃ before mark piece, s = before ++ mark :: piece ∧ p mark = true ∧ ∀ x ∈ piece, p x = false := by
  induction s with
  | nil => exact .inl (List.forall_mem_nil _)
  | cons c s ih =>
      rcases ih with hs | ⟨before, mark, piece, rfl, hmark, hpiece⟩
      · by_cases hc : p c = true
        · exact .inr ⟨[], c, s, rfl, hc, hs⟩
        · exact .inl (List.forall_mem_cons.mpr ⟨Bool.eq_false_iff.mpr hc, hs⟩)
      · exact .inr ⟨c :: before, mark, piece, rfl, hmark, hpiece⟩

/-! ### What does not depend on the ends -/

section Ends

variable {α : Type} {f : Text → α} (hcons : ∀ c, p c = true → ∀ s, f (c :: s) = f s)
  (hconcat : ∀ c, p c = true → ∀ s, f (s ++ [c]) = f s)

include hcons in
theorem apply_dropWhile (s : Text) : f (s.dropWhile p) = f s := by
  induction s with
  | nil => rfl
  | cons c s ih =>
      by_cases hc : p c = true
      · rw [List.dropWhile_cons_of_pos hc, ih, hcons c hc]
      · rw [List.dropWhile_cons_of_neg hc]

include hconcat in
theorem apply_dropEndWhile (s : Text) : f (dropEndWhile p s) = f s := by
  rw [dropEndWhile_eq_rdropWhile]
  induction s using List.reverseRecOn with
  | nil => rfl
  | append_singleton s c ih =>
      by_cases hc : p c = true
      · rw [List.rdropWhile_concat_pos _ _ _ hc, ih, hconcat c hc]
      · rw [List.rdropWhile_concat_neg _ _ _ hc]

include hcons hconcat in
/-- What depends on no unwanted character at the ends can be told from the stripped text. -/
theorem apply_strip (s : Text) : f (strip p s) = f s := by
  rw [strip, apply_dropEndWhile hconcat, apply_dropWhile hcons]

variable {q : Char → Bool} (hq : ∀ c, p c = true → q c = false)

include hcons hq in
theorem map_splitOnP_cons {c : Char} (hc : p c = true) (s : Text) :
    ((c :: s).splitOnP q).map f = (s.splitOnP q).map f := by
  obtain ⟨first, rest, hs⟩ := List.exists_cons_of_ne_nil (List.splitOnP_ne_nil q s)
  rw [List.splitOnP_cons_eq_if_modifyHead, hq c hc, hs]
  simp [hcons c hc]

include hconcat hq in
theorem map_splitOnP_concat {c : Char} (hc : p c = true) (s : Text) :
    ((s ++ [c]).splitOnP q).map f = (s.splitOnP q).map f := by
  have hpiece (piece : Text) (h : ∀ x ∈ piece, q x = false) :
      ((piece ++ [c]).splitOnP q).map f = (piece.splitOnP q).map f := by
    have hlast : ∀ x ∈ piece ++ [c], q x = false :=
      List.forall_mem_append.mpr ⟨h, List.forall_mem_singleton.mpr (hq c hc)⟩
    rw [List.splitOnP_eq_singleton h, List.splitOnP_eq_singleton hlast, List.map_singleton, List.map_singleton,
      hconcat c hc]
  rcases exists_last_piece q s with h | ⟨before, mark, piece, rfl, hmark, h⟩
  · exact hpiece s h
  · rw [List.append_assoc, List.cons_append, List.splitOnP_append_cons _ _ hmark,
      List.splitOnP_append_cons _ _ hmark, List.map_append, List.map_append, hpiece piece h]

include hcons hconcat hq in
/-- The same of each piece: only the first and the last one lose characters. -/
theorem map_splitOnP_strip (s : Text) : ((strip p s).splitOnP q).map f = (s.splitOnP q).map f :=
  apply_strip (f := fun s => (s.splitOnP q).map f) (fun _ => map_splitOnP_cons hcons hq)
    (fun _ => map_splitOnP_concat hconcat hq) s

end Ends

/-! ### Joined pieces -/

theorem join_cons_cons (sep piece piece' : Text) (pieces : List Text) :
    join sep (piece :: piece' :: pieces) = piece ++ sep ++ join sep (piece' :: pieces) :=
  List.intercalate_cons_cons

theorem exists_join_cons (sep piece : Text) (pieces : List Text) :
    ∃ more, join sep (piece :: pieces) = piece ++ more := by
  cases pieces with
  | nil => exact ⟨[], by simp [join]⟩
  | cons piece' pieces => exact ⟨sep ++ join sep (piece' :: pieces), by rw [join_cons_cons, List.append_assoc]⟩

theorem mem_join_of_mem (sep : Text) {piece : Text} {pieces : List Text} (h : piece ∈ pieces) {c : Char}
    (hc : c ∈ piece) : c ∈ join sep pieces := by
  induction pieces with
  | nil => cases h
  | cons first pieces ih =>
      cases pieces with
      | nil =>
          rw [List.mem_singleton] at h
          rwa [join, List.intercalate_singleton, ← h]
      | cons second pieces =>
          rw [join_cons_cons]
          rcases List.mem_cons.mp h with rfl | h
          · exact List.mem_append_left _ (List.mem_append_left _ hc)
          · exact List.mem_append_right _ (ih h)

theorem mem_of_mem_join {sep : Text} {pieces : List Text} {c : Char} (h : c ∈ join sep pieces) :
    c ∈ sep ∨ ∃ piece ∈ pieces, c ∈ piece := by
  induction pieces with
  | nil => cases h
  | cons first pieces ih =>
      cases pieces with
      | nil =>
          rw [join, List.intercalate_singleton] at h
          exact .inr ⟨first, List.mem_cons_self, h⟩
      | cons second pieces =>
          rw [join_cons_cons, List.append_assoc] at h
          rcases List.mem_append.mp h with h | h
          · exact .inr ⟨first, List.mem_cons_self, h⟩
          · rcases List.mem_append.mp h with h | h
            · exact .inl h
            · rcases ih h with h | ⟨piece, hp, hc⟩
              · exact .inl h
              · exact .inr ⟨piece, List.mem_cons_of_mem first hp, hc⟩

/-- Pieces without a separator are cut out of their join as they were. -/
theorem splitOnP_join {sep : Char} (hsep : p sep = true) {pieces : List Text} (hne : pieces ≠ [])
    (h : ∀ piece ∈ pieces, ∀ c ∈ piece, p c = false) :
    (join [sep] pieces).splitOnP p = pieces := by
  induction pieces with
  | nil => exact absurd rfl hne
  | cons piece pieces ih =>
      obtain ⟨hpiece, hpieces⟩ := List.forall_mem_cons.mp h
      cases pieces with
      | nil =>
          rw [join, List.intercalate_singleton]
          exact List.splitOnP_eq_singleton hpiece
      | cons piece' pieces =>
          rw [join_cons_cons, List.append_assoc, List.singleton_append,
            List.splitOnP_append_cons_of_forall_mem hpiece sep hsep,
            ih (List.cons_ne_nil _ _) hpieces]

theorem notMem_of_mem_splitOnP {piece : Text} (h : piece ∈ s.splitOnP p) : ∀ c ∈ piece, p c = false := by
  induction s generalizing piece with
  | nil =>
      rw [List.splitOnP_nil, List.mem_singleton] at h
      subst h
      exact List.forall_mem_nil _
  | cons x s ih =>
      rw [List.splitOnP_cons_eq_if_modifyHead] at h
      split at h
      · rcases List.mem_cons.mp h with rfl | h
        · exact List.forall_mem_nil _
        · exact ih h
      · rename_i hx
        obtain ⟨first, rest, hs⟩ := List.exists_cons_of_ne_nil (List.splitOnP_ne_nil p s)
        rw [hs, List.modifyHead_cons] at h
        rcases List.mem_cons.mp h with rfl | h
        · exact List.forall_mem_cons.mpr ⟨Bool.eq_false_iff.mpr hx, ih (hs ▸ List.mem_cons_self)⟩
        · exact ih (hs ▸ List.mem_cons_of_mem _ h)

theorem mem_of_mem_splitOnP {piece : Text} {x : Char} (hp : piece ∈ s.splitOnP p) (hx : x ∈ piece) : x ∈ s := by
  induction s generalizing piece with
  | nil =>
      rw [List.splitOnP_nil, List.mem_singleton] at hp
      rwa [hp] at hx
  | cons y s ih =>
      rw [List.splitOnP_cons_eq_if_modifyHead] at hp
      split at hp
      · rcases List.mem_cons.mp hp with rfl | hp
        · cases hx
        · exact List.mem_cons_of_mem y (ih hp hx)
      · obtain ⟨first, rest, hs⟩ := List.exists_cons_of_ne_nil (List.splitOnP_ne_nil p s)
        rw [hs, List.modifyHead_cons] at hp
        rcases List.mem_cons.mp hp with rfl | hp
        · exact List.mem_cons.mpr ((List.mem_cons.mp hx).imp_right (ih (hs ▸ List.mem_cons_self)))
        · exact List.mem_cons_of_mem y (ih (hs ▸ List.mem_cons_of_mem _ hp) hx)

/-- A join of stripped pieces that are not empty is stripped. -/
theorem stripped_join {sep : Text} {pieces : List Text}
    (h : ∀ piece ∈ pieces, piece ≠ [] ∧ Stripped p piece) : Stripped p (join sep pieces) := by
  induction pieces with
  | nil => exact ⟨by simp [join], by simp [join]⟩
  | cons piece pieces ih =>
      obtain ⟨⟨hne, hpiece⟩, hpieces⟩ := List.forall_mem_cons.mp h
      cases pieces with
      | nil => rwa [join, List.intercalate_singleton]
      | cons piece' pieces =>
          have hrest := ih hpieces
          have hne' : join sep (piece' :: pieces) ≠ [] := by
            obtain ⟨hp', _⟩ := (List.forall_mem_cons.mp hpieces).1
            cases pieces <;> simp [join, hp']
          rw [join_cons_cons]
          refine ⟨?_, ?_⟩
          · intro c hc
            rw [List.append_assoc, Option.mem_def, List.head?_append_of_ne_nil _ hne] at hc
            exact hpiece.head c hc
          · intro c hc
            rw [Option.mem_def, List.getLast?_append_of_ne_nil _ hne'] at hc
            exact hrest.last c hc

/-! ### Cutting at a character -/

theorem dropPrefix?_singleton_cons {c x : Char} (hx : x ≠ c) (s : Text) : dropPrefix? [c] (x :: s) = none := by
  rw [dropPrefix?, if_neg (Ne.symm hx)]

theorem cutFirst?_append_cons {c : Char} (h : c ∉ s) (t : Text) : cutFirst? [c] (s ++ c :: t) = some (s, t) := by
  induction s with
  | nil => simp [cutFirst?, dropPrefix?]
  | cons x s ih =>
      obtain ⟨hx, hs⟩ := not_or.mp (mt List.mem_cons.mpr h)
      rw [List.cons_append, cutFirst?, dropPrefix?_singleton_cons (Ne.symm hx), ih hs]
      rfl

/-- Two texts are cut alike at the first of one character. -/
theorem append_cons_inj {c : Char} {s' t' : Text} (hs : c ∉ s) (hs' : c ∉ s') (h : s ++ c :: t = s' ++ c :: t') :
    s = s' ∧ t = t' := by
  have hcut := cutFirst?_append_cons hs t
  rw [h, cutFirst?_append_cons hs'] at hcut
  cases hcut
  exact ⟨rfl, rfl⟩

theorem cutFirst?_eq_none {c : Char} (h : c ∉ s) : cutFirst? [c] s = none := by
  induction s with
  | nil => rfl
  | cons x s ih =>
      obtain ⟨hx, hs⟩ := not_or.mp (mt List.mem_cons.mpr h)
      rw [cutFirst?, dropPrefix?_singleton_cons (Ne.symm hx), ih hs]
      rfl

theorem cutLast?_append_cons {c : Char} (h : c ∉ t) (s : Text) : cutLast? [c] (s ++ c :: t) = some (s, t) := by
  have hrev : (s ++ c :: t).reverse = t.reverse ++ c :: s.reverse := by simp
  rw [cutLast?, List.reverse_singleton, hrev, cutFirst?_append_cons (by simpa using h)]
  simp

/-! ### Letter case -/

/-- A capital letter is changed into a small one. -/
theorem toLower_of_isUpper {c : Char} (h : c.isUpper = true) :
    c.toLower.isLower = true ∧ c.toLower.isUpper = false := by
  have hbounds := of_decide_eq_true h
  have hA : 65 ≤ c.val.toNat := hbounds.1
  have hZ : c.val.toNat ≤ 90 := hbounds.2
  have hsmall : c.val.toNat + 32 < 2 ^ 32 := by omega
  have hshift : c.toLower.val.toNat = c.val.toNat + 32 := by
    unfold Char.toLower
    rw [dif_pos hbounds]
    exact (UInt32.toNat_add _ _).trans (Nat.mod_eq_of_lt hsmall)
  have ha : 97 ≤ c.toLower.val.toNat := by omega
  have hz : c.toLower.val.toNat ≤ 122 := by omega
  refine ⟨Bool.and_eq_true_iff.mpr ⟨decide_eq_true ha, decide_eq_true hz⟩, decide_eq_false fun hupper => ?_⟩
  have hcap : c.toLower.val.toNat ≤ 90 := hupper.2
  omega

theorem toLower_of_not_isUpper {c : Char} (h : c.isUpper = false) : c.toLower = c :=
  dif_neg (of_decide_eq_false h)

/-- Only letters are changed to lower case, and only into letters. -/
theorem toLower_eq_iff {c d : Char} (hd : d.isAlpha = false) : c.toLower = d ↔ c = d := by
  obtain ⟨hupper, hlower⟩ := Bool.or_eq_false_iff.mp hd
  cases hc : c.isUpper with
  | false => rw [toLower_of_not_isUpper hc]
  | true =>
      refine iff_of_false ?_ ?_
      · rintro rfl
        rw [(toLower_of_isUpper hc).1] at hlower
        cases hlower
      · rintro rfl
        rw [hupper] at hc
        cases hc

theorem toLower_toLower (c : Char) : c.toLower.toLower = c.toLower := by
  cases hc : c.isUpper with
  | false => rw [toLower_of_not_isUpper hc, toLower_of_not_isUpper hc]
  | true => exact toLower_of_not_isUpper (toLower_of_isUpper hc).2
theorem isAlpha_eq_false_of_isBlank {x : Char} (h : isBlank x = true) : x.isAlpha = false := by
  have hnat : x.isAlpha = true → 65 ≤ x.toNat ∧ x.toNat ≤ 122 := by
    intro halpha
    rcases Bool.or_eq_true_iff.mp halpha with hx | hx
    · have hbounds := of_decide_eq_true hx
      have hA : 65 ≤ x.toNat := hbounds.1
      have hZ : x.toNat ≤ 90 := hbounds.2
      omega
    · obtain ⟨ha, hz⟩ := Bool.and_eq_true_iff.mp hx
      have ha : 97 ≤ x.toNat := of_decide_eq_true ha
      have hz : x.toNat ≤ 122 := of_decide_eq_true hz
      omega
  by_contra hx
  obtain ⟨hlow, hhigh⟩ := hnat (by simpa using hx)
  simp only [isBlank, Bool.or_eq_true, Bool.and_eq_true, decide_eq_true_eq, beq_iff_eq] at h
  omega

theorem isBlank_toLower (c : Char) : isBlank c.toLower = isBlank c := by
  cases hlower : isBlank c.toLower with
  | true =>
      -- what is changed into white space was white space
      rw [(toLower_eq_iff (isAlpha_eq_false_of_isBlank hlower)).mp rfl, hlower]
  | false =>
      cases hc : isBlank c with
      | true => rw [(toLower_eq_iff (isAlpha_eq_false_of_isBlank hc)).mpr rfl, hc] at hlower; exact hlower.symm
      | false => rfl

theorem lower_lower (s : Text) : lower (lower s) = lower s := by
  unfold lower
  rw [List.map_map]
  exact List.map_congr_left fun c _ => toLower_toLower c

theorem dropWhile_lower (h : ∀ c, p c.toLower = p c) (s : Text) :
    (lower s).dropWhile p = lower (s.dropWhile p) := by
  have hp : p ∘ Char.toLower = p := funext h
  rw [lower, List.dropWhile_map, hp, ← lower]

/-- Letter case does not matter for stripping characters that have none. -/
theorem strip_lower (h : ∀ c, p c.toLower = p c) (s : Text) : strip p (lower s) = lower (strip p s) := by
  unfold strip dropEndWhile
  rw [dropWhile_lower h, lower, ← List.map_reverse, ← lower, dropWhile_lower h, lower, ← List.map_reverse, ← lower]

end Text

end ApiPages
