import Mathlib.Data.List.Induction
import Mathlib.Data.List.Nodup
import ApiPages.Text.Basic

/-! # Lists without repeats

`eraseDups` keeps each item where it first occurs (`firstOfEach_iff`).  Repeats in the parts of a list need not be
removed if they are removed from the whole (`eraseDups_flatMap_eraseDups`, `eraseDups_eraseDups_flatMap`).

A list with at most one item for each key is kept up to date in the same order: a new item replaces the one with its
key where that stands, and goes to the end if there is none (`upsertBy`).  After any number of items this leaves the
last item of each key, in the order in which the keys came first (`lastOfEach_concat`, `pairwise_lastOfEach`,
`exists_append_of_mem_lastOfEach`). -/

namespace ApiPages

theorem nodup_eraseDups {α : Type} [BEq α] [LawfulBEq α] (as : List α) : as.eraseDups.Nodup := by
  cases as with
  | nil => exact List.nodup_nil
  | cons a as =>
      rw [List.eraseDups_cons, List.nodup_cons, List.mem_eraseDups]
      refine ⟨?_, nodup_eraseDups _⟩
      simp
termination_by as.length
decreasing_by exact Nat.lt_succ_of_le (List.length_filter_le _ _)

theorem eraseDups_eq_self {α : Type} [BEq α] [LawfulBEq α] {as : List α} (h : as.Nodup) :
    as.eraseDups = as := by
  induction as with
  | nil => rfl
  | cons a as ih =>
      obtain ⟨ha, has⟩ := List.nodup_cons.mp h
      have hfilter : (as.filter fun b => !b == a) = as := by
        rw [List.filter_eq_self]
        intro b hb
        rw [Bool.not_eq_true', beq_eq_false_iff_ne]
        rintro rfl
        exact ha hb
      rw [List.eraseDups_cons, hfilter, ih has]

/-! ### Repeats in the parts of a list -/

section Parts

variable {α κ : Type} [BEq κ] [LawfulBEq κ] {ks ls : List κ} {k : κ}

theorem eraseDups_append_of_subset (h : ∀ k ∈ ls, k ∈ ks) : (ks ++ ls).eraseDups = ks.eraseDups := by
  have hnone : ls.removeAll ks = [] := by
    rw [List.removeAll, List.filter_eq_nil_iff]
    intro k hk
    simp [h k hk]
  rw [List.eraseDups_append, hnone, List.eraseDups_nil, List.append_nil]

theorem eraseDups_concat_of_mem (h : k ∈ ks) : (ks ++ [k]).eraseDups = ks.eraseDups :=
  eraseDups_append_of_subset (by simpa using h)

theorem eraseDups_concat_of_notMem (h : k ∉ ks) : (ks ++ [k]).eraseDups = ks.eraseDups ++ [k] := by
  have hnew : [k].removeAll ks = [k] := by simp [List.removeAll, h]
  rw [List.eraseDups_append, hnew, eraseDups_eq_self (List.nodup_singleton k)]

theorem eraseDups_eraseDups_append (ks ls : List κ) :
    (ks.eraseDups ++ ls).eraseDups = (ks ++ ls).eraseDups := by
  have hremove : ls.removeAll ks.eraseDups = ls.removeAll ks := by
    simp [List.removeAll, List.mem_eraseDups]
  rw [List.eraseDups_append, List.eraseDups_append, eraseDups_eq_self (nodup_eraseDups ks), hremove]

theorem eraseDups_append_eraseDups (ks ls : List κ) :
    (ks ++ ls.eraseDups).eraseDups = (ks ++ ls).eraseDups := by
  induction ls using List.reverseRecOn with
  | nil => rfl
  | append_singleton ls l ih =>
      by_cases hl : l ∈ ls
      · rw [eraseDups_concat_of_mem hl, ih, ← List.append_assoc, eraseDups_concat_of_mem (by simp [hl])]
      · rw [eraseDups_concat_of_notMem hl, ← List.append_assoc, ← List.append_assoc]
        by_cases hk : l ∈ ks
        · rw [eraseDups_concat_of_mem (by simp [hk]), eraseDups_concat_of_mem (by simp [hk]), ih]
        · rw [eraseDups_concat_of_notMem (by simp [hl, hk]), eraseDups_concat_of_notMem (by simp [hl, hk]), ih]

theorem eraseDups_flatMap_eraseDups (f : α → List κ) (as : List α) :
    (as.flatMap fun a => (f a).eraseDups).eraseDups = (as.flatMap f).eraseDups := by
  induction as with
  | nil => rfl
  | cons a as ih =>
      rw [List.flatMap_cons, List.flatMap_cons, eraseDups_eraseDups_append, ← eraseDups_append_eraseDups, ih,
        eraseDups_append_eraseDups]

theorem eraseDups_eraseDups_flatMap [BEq α] [LawfulBEq α] (f : α → List κ) (as : List α) :
    (as.eraseDups.flatMap f).eraseDups = (as.flatMap f).eraseDups := by
  induction as using List.reverseRecOn with
  | nil => rfl
  | append_singleton as a ih =>
      by_cases ha : a ∈ as
      · have hold : ∀ k ∈ [a].flatMap f, k ∈ as.flatMap f := by
          intro k hk
          rw [List.flatMap_singleton] at hk
          exact List.mem_flatMap.mpr ⟨a, ha, hk⟩
        rw [eraseDups_concat_of_mem ha, ih, List.flatMap_append, eraseDups_append_of_subset hold]
      · rw [eraseDups_concat_of_notMem ha, List.flatMap_append, List.flatMap_append,
          ← eraseDups_eraseDups_append, ih, eraseDups_eraseDups_append]

theorem eraseDups_concat (ks : List κ) (k : κ) :
    (ks ++ [k]).eraseDups = if k ∈ ks.eraseDups then ks.eraseDups else ks.eraseDups ++ [k] := by
  rw [List.eraseDups_append, List.removeAll, List.filter_cons]
  by_cases hk : k ∈ ks <;> simp [hk, List.mem_eraseDups, List.eraseDups_cons]

/-- Without repeats the keys are in the order in which they first occur. -/
theorem pairwise_idxOf_eraseDups (ks : List κ) :
    ks.eraseDups.Pairwise fun k l => ks.idxOf k < ks.idxOf l := by
  induction ks using List.reverseRecOn with
  | nil => exact .nil
  | append_singleton ks k ih =>
      have hold : ∀ l ∈ ks.eraseDups, (ks ++ [k]).idxOf l = ks.idxOf l :=
        fun l hl => List.idxOf_append_of_mem (List.mem_eraseDups.mp hl)
      have hkept : ks.eraseDups.Pairwise fun l l' => (ks ++ [k]).idxOf l < (ks ++ [k]).idxOf l' := by
        refine ih.imp_of_mem fun hl hl' hlt => ?_
        rwa [hold _ hl, hold _ hl']
      rw [eraseDups_concat]
      split
      · exact hkept
      · rename_i hk
        rw [List.mem_eraseDups] at hk
        refine List.pairwise_append.mpr ⟨hkept, List.pairwise_singleton _ _, fun l hl l' hl' => ?_⟩
        have hlt := List.idxOf_lt_length_iff.mpr (List.mem_eraseDups.mp hl)
        rw [List.mem_singleton] at hl'
        rw [hold l hl, hl', List.idxOf_append_of_notMem hk]
        omega

/-- What is left of a list without its repeats: the same items, in the order in which they first occur. -/
structure FirstOfEach (all kept : List κ) : Prop where
  mem_iff : ∀ k, k ∈ kept ↔ k ∈ all
  ordered : kept.Pairwise fun k l => all.idxOf k < all.idxOf l

omit [LawfulBEq κ] in
theorem FirstOfEach.nodup {all kept : List κ} (h : FirstOfEach all kept) : kept.Nodup := by
  refine h.ordered.imp fun {k l} hlt => ?_
  rintro rfl
  exact Nat.lt_irrefl _ hlt

theorem firstOfEach_eraseDups (all : List κ) : FirstOfEach all all.eraseDups :=
  ⟨fun _ => List.mem_eraseDups, pairwise_idxOf_eraseDups all⟩

/-- There is only one way to leave out the repeats. -/
theorem firstOfEach_iff {all kept : List κ} : FirstOfEach all kept ↔ kept = all.eraseDups := by
  constructor
  · intro h
    have hall := firstOfEach_eraseDups all
    have hperm : kept.Perm all.eraseDups :=
      (List.perm_ext_iff_of_nodup h.nodup hall.nodup).mpr fun k => (h.mem_iff k).trans (hall.mem_iff k).symm
    refine hperm.eq_of_pairwise (fun k l _ _ hkl hlk => ?_) h.ordered hall.ordered
    exact absurd (Nat.lt_trans hkl hlk) (Nat.lt_irrefl _)
  · rintro rfl
    exact firstOfEach_eraseDups all

end Parts

/-! ### One item for each key -/

/-- With distinct keys an item is found under its key. -/
theorem find?_of_nodup_map {α κ : Type} [BEq κ] [LawfulBEq κ] {key : α → κ} {as : List α} {a : α}
    (h : (as.map key).Nodup) (ha : a ∈ as) : as.find? (key · == key a) = some a := by
  cases hfind : as.find? (key · == key a) with
  | none =>
      have hne := List.find?_eq_none.mp hfind a ha
      simp at hne
  | some b =>
      have hkey : key b = key a := by simpa using List.find?_some hfind
      rw [List.inj_on_of_nodup_map h (List.mem_of_find?_eq_some hfind) ha hkey]

variable {α κ : Type} [DecidableEq κ] {key : α → κ} {a : α}

/-- The last item of each key, in the order in which the keys first occur. -/
def lastOfEach (key : α → κ) (as : List α) : List α :=
  (as.map key).eraseDups.filterMap fun k => as.reverse.find? fun b => key b = k

/-- Items that are chosen by their keys, and one more: it takes the place of its key, which may be a new one. -/
theorem upsertBy_filterMap {choose : κ → Option α} {ks : List κ} (hnodup : ks.Nodup)
    (hkey : ∀ k ∈ ks, ∃ b, choose k = some b ∧ key b = k) :
    upsertBy key a (ks.filterMap choose) =
      (if key a ∈ ks then ks else ks ++ [key a]).filterMap fun k => if key a = k then some a else choose k := by
  induction ks with
  | nil => simp [upsertBy]
  | cons k ks ih =>
      obtain ⟨hk, hks⟩ := List.nodup_cons.mp hnodup
      obtain ⟨⟨b, hb, hbk⟩, hkeys⟩ := List.forall_mem_cons.mp hkey
      by_cases ha : key a = k
      · -- the other keys differ from this one
        have hrest : ks.filterMap (fun k' => if key a = k' then some a else choose k') = ks.filterMap choose := by
          refine List.filterMap_congr fun k' hk' => if_neg ?_
          rintro rfl
          exact hk (ha ▸ hk')
        have hfirst : upsertBy key a (b :: ks.filterMap choose) = a :: ks.filterMap choose := by
          rw [upsertBy, if_pos (hbk.trans ha.symm)]
        rw [List.filterMap_cons_some hb, hfirst, if_pos (by simp [ha]), List.filterMap_cons, hrest]
        simp [ha]
      · have hmem : key a ∈ k :: ks ↔ key a ∈ ks := by simp [ha]
        have hrest : upsertBy key a (b :: ks.filterMap choose) = b :: upsertBy key a (ks.filterMap choose) := by
          rw [upsertBy, if_neg (fun h => ha (h.symm.trans hbk))]
        rw [List.filterMap_cons_some hb, hrest, ih hks hkeys]
        simp only [hmem]
        split <;> simp [ha, hb]

theorem exists_find?_of_mem_map {as : List α} {k : κ} (h : k ∈ as.map key) :
    ∃ b, (as.reverse.find? fun b => key b = k) = some b ∧ key b = k := by
  obtain ⟨b, hb, hk⟩ := List.mem_map.mp h
  cases hf : as.reverse.find? fun b => key b = k with
  | none =>
      have hne := List.find?_eq_none.mp hf b (List.mem_reverse.mpr hb)
      exact absurd hk (by simpa using hne)
  | some b' => exact ⟨b', rfl, by simpa using List.find?_some hf⟩

/-- One more item replaces the last one of its key, or is the first of its key. -/
theorem lastOfEach_concat (key : α → κ) (as : List α) (a : α) :
    lastOfEach key (as ++ [a]) = upsertBy key a (lastOfEach key as) := by
  have hlast : (fun k => (as ++ [a]).reverse.find? fun b => key b = k) =
      fun k => if key a = k then some a else as.reverse.find? fun b => key b = k := by
    funext k
    rw [List.reverse_concat, List.find?_cons]
    by_cases hk : key a = k <;> simp [hk]
  have hchosen : ∀ k ∈ (as.map key).eraseDups,
      ∃ b, (as.reverse.find? fun b => key b = k) = some b ∧ key b = k :=
    fun k hk => exists_find?_of_mem_map (List.mem_eraseDups.mp hk)
  unfold lastOfEach
  rw [upsertBy_filterMap (nodup_eraseDups _) hchosen, hlast, List.map_append, List.map_singleton, eraseDups_concat]

theorem mem_of_mem_upsertBy {b : α} {as : List α} (h : b ∈ upsertBy key a as) : b = a ∨ b ∈ as := by
  induction as with
  | nil => exact .inl (List.mem_singleton.mp h)
  | cons c as ih =>
      unfold upsertBy at h
      split at h
      · exact (List.mem_cons.mp h).imp_right (List.mem_cons_of_mem c)
      · rcases List.mem_cons.mp h with rfl | h
        · exact .inr List.mem_cons_self
        · exact (ih h).imp_right (List.mem_cons_of_mem c)

theorem upsertBy_of_notMem {as : List α} (h : key a ∉ as.map key) : upsertBy key a as = as ++ [a] := by
  induction as with
  | nil => rfl
  | cons b as ih =>
      obtain ⟨hb, has⟩ := not_or.mp (mt List.mem_cons.mpr h)
      rw [upsertBy, if_neg (Ne.symm hb), ih has, List.cons_append]

theorem lastOfEach_eq_self {as : List α} (h : (as.map key).Nodup) : lastOfEach key as = as := by
  induction as using List.reverseRecOn with
  | nil => rfl
  | append_singleton as a ih =>
      rw [List.map_append, List.map_singleton, ← List.concat_eq_append, List.nodup_concat] at h
      rw [lastOfEach_concat, ih h.2, upsertBy_of_notMem h.1]

theorem map_lastOfEach (key : α → κ) (as : List α) : (lastOfEach key as).map key = (as.map key).eraseDups := by
  have hkey : ∀ k ∈ (as.map key).eraseDups, (as.reverse.find? fun b => key b = k).map key = some k := by
    intro k hk
    obtain ⟨b, hb, hbk⟩ := exists_find?_of_mem_map (List.mem_eraseDups.mp hk)
    rw [hb, Option.map_some, hbk]
  rw [lastOfEach, List.map_filterMap, List.filterMap_congr hkey, List.filterMap_some]

theorem nodup_map_lastOfEach (key : α → κ) (as : List α) : ((lastOfEach key as).map key).Nodup := by
  rw [map_lastOfEach]
  exact nodup_eraseDups _

theorem mem_map_lastOfEach {as : List α} {k : κ} : k ∈ (lastOfEach key as).map key ↔ k ∈ as.map key := by
  rw [map_lastOfEach, List.mem_eraseDups]

/-- The kept items are in the order of the first items of their keys. -/
theorem pairwise_lastOfEach (key : α → κ) (as : List α) :
    (lastOfEach key as).Pairwise fun a b =>
      as.findIdx (fun c => key c = key a) < as.findIdx (fun c => key c = key b) := by
  have hfirst : ∀ k, (as.map key).idxOf k = as.findIdx fun c => key c = k := by
    intro k
    rw [List.idxOf, List.findIdx_map]
    rfl
  have hkeys := pairwise_idxOf_eraseDups (as.map key)
  rw [← map_lastOfEach, List.pairwise_map] at hkeys
  simpa only [hfirst] using hkeys

/-- No other item of its key comes after one that is kept. -/
theorem exists_append_of_mem_lastOfEach {as : List α} (h : a ∈ lastOfEach key as) :
    ∃ before after, as = before ++ a :: after ∧ ∀ b ∈ after, key b ≠ key a := by
  obtain ⟨k, _, hfind⟩ := List.mem_filterMap.mp h
  obtain ⟨hk, later, earlier, hsplit, hlater⟩ := List.find?_eq_some_iff_append.mp hfind
  have hkey : key a = k := of_decide_eq_true hk
  refine ⟨earlier.reverse, later.reverse, ?_, ?_⟩
  · rw [← List.reverse_inj, hsplit]
    simp
  · intro b hb hab
    have hne := hlater b (List.mem_reverse.mp hb)
    simp [hab, hkey] at hne

end ApiPages
