import ApiPages.Proofs.ByteOrder
import ApiPages.Proofs.MissingDonor

/-! # The list of documented methods

A documented class has one method for each of its members, in the order of `InPageOrder`: public ones first,
then by the bytes of their names, and methods of one name as they are declared.  Two stable sorts give this
order (`inPageOrder_arrange`). -/

namespace ApiPages

open SessionM

/-! ### Order -/

theorem eq_of_append_eq_append {α : Type} {q : α → Bool} {l₁ l₂ m₁ m₂ : List α} (h : l₁ ++ l₂ = m₁ ++ m₂)
    (hl₁ : ∀ a ∈ l₁, q a = true) (hl₂ : ∀ a ∈ l₂, q a = false) (hm₁ : ∀ a ∈ m₁, q a = true)
    (hm₂ : ∀ a ∈ m₂, q a = false) : l₁ = m₁ ∧ l₂ = m₂ := by
  have hfront : ∀ k₁ k₂ : List α, (∀ a ∈ k₁, q a = true) → (∀ a ∈ k₂, q a = false) →
      (k₁ ++ k₂).filter q = k₁ := by
    intro k₁ k₂ hk₁ hk₂
    have hnil : k₂.filter q = [] := List.filter_eq_nil_iff.mpr fun a ha => by simp [hk₂ a ha]
    rw [List.filter_append, List.filter_eq_self.mpr hk₁, hnil, List.append_nil]
  have heq : l₁ = m₁ := by rw [← hfront l₁ l₂ hl₁ hl₂, h, hfront m₁ m₂ hm₁ hm₂]
  subst heq
  exact ⟨rfl, List.append_cancel_left h⟩

/-- A part of a list is sorted as it stands in the sorted list. -/
theorem mergeSort_filter {α : Type} {le : α → α → Bool}
    (trans : ∀ a b c, le a b = true → le b c = true → le a c = true)
    (total : ∀ a b, (le a b || le b a) = true) (p : α → Bool) (l : List α) :
    (l.filter p).mergeSort le = (l.mergeSort le).filter p := by
  -- the first element goes in front of those that it precedes or ties with, in the whole list and in the part
  have hbehind : ∀ {a : α} {k k₁ k₂ : List α}, (a :: k).mergeSort le = k₁ ++ a :: k₂ →
      ∀ b ∈ k₂, (!le a b) = false := by
    intro a k k₁ k₂ hk b hb
    have hsorted := List.pairwise_mergeSort trans total (a :: k)
    rw [hk] at hsorted
    have hab := List.rel_of_pairwise_cons (List.pairwise_append.mp hsorted).2.1 hb
    simp [hab]
  induction l with
  | nil => simp
  | cons a l ih =>
      obtain ⟨l₁, l₂, hcons, hl, hbefore⟩ := List.mergeSort_cons trans total a l
      cases hp : p a with
      | false => simp [hp, ih, hcons, hl]
      | true =>
          obtain ⟨m₁, m₂, hcons', hm, hbefore'⟩ := List.mergeSort_cons trans total a (l.filter p)
          rw [ih, hl, List.filter_append] at hm
          obtain ⟨h₁, h₂⟩ := eq_of_append_eq_append hm
            (fun b hb => hbefore b (List.mem_filter.mp hb).1)
            (fun b hb => hbehind hcons b (List.mem_filter.mp hb).1) hbefore' (hbehind hcons')
          rw [List.filter_cons_of_pos hp, hcons', hcons, List.filter_append, List.filter_cons_of_pos hp,
            h₁, h₂]

/-- A stable sort keeps the order of elements of which each may stand before each other one. -/
theorem filter_mergeSort {α : Type} {le : α → α → Bool} {p : α → Bool}
    (trans : ∀ a b c, le a b = true → le b c = true → le a c = true)
    (total : ∀ a b, (le a b || le b a) = true) (hp : ∀ a b, p a = true → p b = true → le a b = true)
    (l : List α) : (l.mergeSort le).filter p = l.filter p := by
  have hsorted : (l.filter p).Pairwise fun a b => le a b = true :=
    List.pairwise_filter.mpr (List.pairwise_of_forall hp)
  rw [← mergeSort_filter trans total, List.mergeSort_of_pairwise hsorted]

theorem MethodDoc.nameLe_trans (a b c : MethodDoc) (hab : a.nameLe b = true) (hbc : b.nameLe c = true) :
    a.nameLe c = true :=
  Text.le_trans a.name b.name c.name hab hbc

theorem MethodDoc.nameLe_total (a b : MethodDoc) : (a.nameLe b || b.nameLe a) = true :=
  Text.le_total a.name b.name

/-- The methods `gs` are the methods `fs` in the order of a page. -/
structure InPageOrder (fs gs : List MethodDoc) : Prop where
  /-- None is lost and none is added. -/
  perm : gs.Perm fs
  /-- No public method comes after a protected one. -/
  grouped : gs.Pairwise fun f g => f.access = .prot → g.access = .prot
  /-- Methods of the same access are in the order of the bytes of their names. -/
  sorted : gs.Pairwise fun f g => f.access = g.access → Text.bytes f.name ≤ Text.bytes g.name
  /-- Methods of the same access and name are in the given order. -/
  stable : ∀ access name, gs.filter (fun f => f.access = access ∧ f.name = name) =
    fs.filter (fun f => f.access = access ∧ f.name = name)

theorem access_of_mem_group {fs : List MethodDoc} {access : Access} {f : MethodDoc}
    (h : f ∈ (fs.filter (·.access = access)).mergeSort MethodDoc.nameLe) : f.access = access := by
  rw [List.mem_mergeSort, List.mem_filter] at h
  exact of_decide_eq_true h.2

theorem sorted_group (fs : List MethodDoc) :
    (fs.mergeSort MethodDoc.nameLe).Pairwise fun f g => Text.bytes f.name ≤ Text.bytes g.name := by
  refine (List.pairwise_mergeSort MethodDoc.nameLe_trans MethodDoc.nameLe_total fs).imp ?_
  intro f g h
  exact (Text.le_iff_bytes_le f.name g.name).mp h

theorem filter_access_arrange (fs : List MethodDoc) (access : Access) :
    (arrange fs).filter (·.access = access) =
      (fs.filter (·.access = access)).mergeSort MethodDoc.nameLe := by
  have hkept : ∀ a, ((fs.filter (·.access = a)).mergeSort MethodDoc.nameLe).filter (·.access = a) =
      (fs.filter (·.access = a)).mergeSort MethodDoc.nameLe := by
    intro a
    rw [List.filter_eq_self]
    intro f hf
    exact decide_eq_true (access_of_mem_group hf)
  have hdropped : ∀ a b, a ≠ b →
      ((fs.filter (·.access = a)).mergeSort MethodDoc.nameLe).filter (·.access = b) = [] := by
    intro a b hab
    rw [List.filter_eq_nil_iff]
    intro f hf hb
    exact hab ((access_of_mem_group hf).symm.trans (of_decide_eq_true hb))
  rw [arrange, List.filter_append]
  cases access with
  | pub => rw [hkept, hdropped .prot .pub (by decide), List.append_nil]
  | prot => rw [hkept, hdropped .pub .prot (by decide), List.nil_append]

theorem inPageOrder_arrange (fs : List MethodDoc) : InPageOrder fs (arrange fs) where
  perm := arrange_perm fs
  grouped := by
    refine List.pairwise_append.mpr ⟨?_, ?_, ?_⟩
    · refine (sorted_group _).imp_of_mem fun hf _ _ hprot => ?_
      rw [access_of_mem_group hf] at hprot
      cases hprot
    · exact (sorted_group _).imp_of_mem fun _ hg _ _ => access_of_mem_group hg
    · exact fun _ _ _ hg _ => access_of_mem_group hg
  sorted := by
    refine List.pairwise_append.mpr ⟨?_, ?_, ?_⟩
    · refine (sorted_group _).imp ?_
      exact fun h _ => h
    · refine (sorted_group _).imp ?_
      exact fun h _ => h
    · intro f hf g hg heq
      rw [access_of_mem_group hf, access_of_mem_group hg] at heq
      cases heq
  stable access name := by
    have hsplit : ∀ l : List MethodDoc, l.filter (fun f => f.access = access ∧ f.name = name) =
        (l.filter (·.access = access)).filter (·.name = name) := by
      intro l
      rw [List.filter_filter]
      exact List.filter_congr fun f _ => by rw [Bool.decide_and, Bool.and_comm]
    rw [hsplit, hsplit, filter_access_arrange]
    refine filter_mergeSort MethodDoc.nameLe_trans MethodDoc.nameLe_total ?_ _
    intro f g hf hg
    rw [MethodDoc.nameLe, of_decide_eq_true hf, of_decide_eq_true hg]
    exact (Text.le_iff_bytes_le name name).mpr (List.le_refl _)

/-! ### Members -/

instance MethodDecl.decidableBelongsTo (d : MethodDecl) (c : ClassDecl) : Decidable (d.BelongsTo c) :=
  decidable_of_iff
    (d ∈ c.methods ∧ d.visibility ≠ .priv ∧ (d.read c).ignored = false ∧
      ∀ name ∈ d.declaringClass, (ClassDoc.ofName c.name).isNamed name = true)
    ⟨fun ⟨hm, hv, hi, hn⟩ => ⟨hm, hv, hi, hn⟩,
      fun h => ⟨h.mem, h.visible, h.notIgnored, h.declared⟩⟩

theorem members_eq_filter (keep : MethodDecl → Bool) (c : ClassDecl) :
    members keep c = c.methods.filter fun d => keep d && decide (d.BelongsTo c) := by
  refine List.filter_congr fun d hd => ?_
  have h : d ∈ members keep c ↔ keep d = true ∧ d.BelongsTo c := mem_members_iff
  rw [members, List.mem_filter] at h
  rw [Bool.eq_iff_iff, Bool.and_eq_true (keep d) (decide _), decide_eq_true_iff, ← h]
  exact ⟨fun hk => ⟨hd, hk⟩, And.right⟩

namespace Codebase

variable {cb : Codebase} {c : ClassDecl} {d : MethodDecl} {f : MethodDoc}

/-- How a method of a class is documented: by its own comment and under its own name and access; or, if it
inherits its documentation, as the first class of the search order documents it, with the spelling of the name
and the access that it has there. -/
def DocumentedAs (cb : Codebase) (c : ClassDecl) (d : MethodDecl) (f : MethodDoc) : Prop :=
  if d.inheritsDoc c then
    ∃ found, firstDonor (cb.resolve [c.key]) d.name (cb.index.searchOrder c) = .ok (some found) ∧
      f = adopt c d found ∧ f.name = found.name ∧ f.access = found.access ∧
      Text.sameLetters f.name d.name = true
  else f = cb.describe c d ∧ f.name = d.name ∧ f.access = d.access

theorem documentedAs_of_buildMethod (h : buildMethod cb (cb.resolve [c.key]) c d = .ok f) :
    cb.DocumentedAs c d f := by
  by_cases hi : d.inheritsDoc c = true
  · obtain ⟨found, hfind, rfl⟩ := buildMethod_inherits hi h
    have hfirst := firstDonor_of_findDonor hfind
    rw [← ClassIndex.searchOrder_eq] at hfirst
    rw [DocumentedAs, if_pos hi]
    exact ⟨found, hfirst, rfl, adopt_name c d found, adopt_access c d found,
      sameLetters_of_buildMethod h⟩
  · rw [buildMethod, if_neg hi] at h
    cases h
    rw [DocumentedAs, if_neg hi]
    exact ⟨rfl, rfl, rfl⟩

/-- **A documented class lists each of its members once, in the order of a page.**  The members are the chosen
methods that are not private, not ignored, and declared by the class itself.  What decides about the place of a
method is its documentation: an inherited one stands where its donor's access and spelling put it. -/
theorem Reached.lists_each_member_once {s s' : Session} {keep : MethodDecl → Bool} {name : Text}
    {e : ClassDoc} (hs : cb.Reached s) (hchain : s.chain = [])
    (h : Returns (cb.documentM keep name) s (.ok e) s') :
    ∃ c fs, cb.index.find? name = some c ∧
      List.Forall₂ (cb.DocumentedAs c) (c.methods.filter fun d => keep d && decide (d.BelongsTo c)) fs ∧
      InPageOrder fs e.methods := by
  obtain ⟨c, hf, hb⟩ := hs.exists_buildClass hchain h
  obtain ⟨fs, hall, rfl⟩ := buildClass_eq_ok_iff.mp hb
  rw [members_eq_filter] at hall
  exact ⟨c, fs, hf, hall.imp fun _ _ => documentedAs_of_buildMethod, inPageOrder_arrange fs⟩

/-! ### A class with methods of all kinds -/

namespace Report

/-- A protected method of the parent. -/
def print : MethodDecl := { name := "print", visibility := .prot, comment := some "/** Prints. */" }

def sheet : ClassDecl := { name := "Sheet", methods := [print] }

/-- Inherits a protected method under another spelling, has two methods of one name and one whose first letter
takes two bytes, and hides a method. -/
def report : ClassDecl :=
  { name := "Report", parent := some "Sheet",
    methods :=
      [{ name := "total" }, inheriting "PRINT",
        { name := "append", visibility := .prot }, { name := "total", isStatic := true },
        { name := "état" }, { name := "reset", visibility := .priv }, { name := "close" }] }

end Report

def office : Codebase :=
  ⟨⟨[Report.report, Report.sheet], by decide⟩, ⟨fun _ => .error .missing⟩⟩

/-- Six of the seven methods are listed, the inherited one among the protected ones. -/
theorem office_lists_each_member_once :
    ∃ e s', office.Reached {} ∧ Returns (office.documentM keepAll "Report") {} (.ok e) s' ∧
      e.methods.length = 6 ∧
      ∃ c fs, office.index.find? "Report" = some c ∧
        List.Forall₂ (office.DocumentedAs c) (c.methods.filter fun d => decide (d.BelongsTo c)) fs ∧
        InPageOrder fs e.methods := by
  have hs : office.Reached {} := .start
  have hok : (office.document keepAll "Report").toOption.isSome = true := by decide +kernel
  obtain ⟨s', hr, _⟩ := documentM_eq_document keepAll "Report" hs.valid rfl
  cases hd : office.document keepAll "Report" with
  | error e =>
      rw [hd] at hok
      cases hok
  | ok e =>
      rw [hd] at hr
      obtain ⟨c, fs, hc, hall, horder⟩ := hs.lists_each_member_once rfl hr
      have hfind : office.index.find? "Report" = some Report.report := by decide +kernel
      obtain rfl : Report.report = c := Option.some.inj (hfind.symm.trans hc)
      have hlength : (Report.report.methods.filter fun d => decide (d.BelongsTo Report.report)).length = 6 := by
        decide +kernel
      refine ⟨e, s', hs, hr, ?_, Report.report, fs, hc, hall, horder⟩
      rw [horder.perm.length_eq, ← hall.length_eq]
      exact hlength

end Codebase

end ApiPages
