import ApiPages.MemberFilter
import ApiPages.Proofs.MemberList

/-! # Filters only hide

A filter decides about the declarations of methods before anything is documented, and a page is sorted after
that.  So two runs have to be compared, one over all members of a class and one over those that are kept.  An
entry is a member with its documentation.  The page of a class is its entries in order
(`buildClass_eq_ok_iff_entries`), and to keep some entries before they are sorted is the same as to keep them
afterwards (`arrangeEntries_filter`), because the sort is stable. -/

namespace ApiPages

open SessionM

/-! ### Entries -/

/-- A member of a class and its documentation. -/
abbrev Entry := MethodDecl × MethodDoc

/-- Entries in the order of a page. -/
def arrangeEntries (entries : List Entry) : List Entry :=
  (entries.filter (·.2.access = .pub)).mergeSort (fun a b => a.2.nameLe b.2) ++
    (entries.filter (·.2.access = .prot)).mergeSort (fun a b => a.2.nameLe b.2)

theorem map_arrangeEntries (entries : List Entry) :
    (arrangeEntries entries).map Prod.snd = arrange (entries.map Prod.snd) := by
  have hgroup : ∀ access : Access,
      ((entries.filter (·.2.access = access)).mergeSort (fun a b => a.2.nameLe b.2)).map Prod.snd =
        ((entries.map Prod.snd).filter (·.access = access)).mergeSort MethodDoc.nameLe := by
    intro access
    have hsort : ∀ l : List Entry,
        (l.mergeSort (fun a b => a.2.nameLe b.2)).map Prod.snd = (l.map Prod.snd).mergeSort MethodDoc.nameLe :=
      fun l => List.map_mergeSort fun _ _ _ _ => rfl
    rw [hsort, List.filter_map]
    rfl
  rw [arrangeEntries, arrange, List.map_append, hgroup, hgroup]

theorem arrangeEntries_perm (entries : List Entry) : (arrangeEntries entries).Perm entries :=
  mergeSort_groups_perm (fun e : Entry => e.2.access) (fun a b => a.2.nameLe b.2) entries

theorem arrangeEntries_filter (p : Entry → Bool) (entries : List Entry) :
    arrangeEntries (entries.filter p) = (arrangeEntries entries).filter p := by
  have hgroup : ∀ access : Access,
      ((entries.filter p).filter (·.2.access = access)).mergeSort (fun a b => a.2.nameLe b.2) =
        ((entries.filter (·.2.access = access)).mergeSort (fun a b => a.2.nameLe b.2)).filter p := by
    intro access
    rw [List.filter_comm, mergeSort_filter]
    · exact fun a b c => MethodDoc.nameLe_trans a.2 b.2 c.2
    · exact fun a b => MethodDoc.nameLe_total a.2 b.2
  rw [arrangeEntries, arrangeEntries, List.filter_append, hgroup, hgroup]

section Ask

variable {cb : Codebase} {ask : Text → Except DocError (Option ClassDoc)} {keep : MethodDecl → Bool}
  {c : ClassDecl} {doc : ClassDoc}

theorem exists_entries {P : MethodDecl → MethodDoc → Prop} {ds : List MethodDecl} {fs : List MethodDoc}
    (h : List.Forall₂ P ds fs) :
    ∃ entries : List Entry, entries.map Prod.fst = ds ∧ entries.map Prod.snd = fs ∧
      ∀ e ∈ entries, P e.1 e.2 := by
  obtain ⟨hlength, hall⟩ := List.forall₂_iff_zip.mp h
  refine ⟨ds.zip fs, List.map_fst_zip hlength.le, List.map_snd_zip hlength.ge, ?_⟩
  intro e he
  exact hall he

/-- A class is documented exactly by the entries of its members, in the order of a page. -/
theorem buildClass_eq_ok_iff_entries :
    buildClass cb ask keep c = .ok doc ↔
      ∃ entries : List Entry, entries.map Prod.fst = members keep c ∧
        (∀ e ∈ entries, buildMethod cb ask c e.1 = .ok e.2) ∧
        doc = { classHeader c with methods := (arrangeEntries entries).map Prod.snd } := by
  rw [buildClass_eq_ok_iff]
  constructor
  · rintro ⟨fs, hall, rfl⟩
    obtain ⟨entries, hds, rfl, hbuilt⟩ := exists_entries hall
    exact ⟨entries, hds, hbuilt, by rw [map_arrangeEntries]⟩
  · rintro ⟨entries, hds, hbuilt, rfl⟩
    refine ⟨entries.map Prod.snd, ?_, by rw [map_arrangeEntries]⟩
    rw [← hds, List.forall₂_map_left_iff, List.forall₂_map_right_iff, List.forall₂_same]
    exact hbuilt

theorem buildClass_of_entries {entries : List Entry} (hds : entries.map Prod.fst = members keepAll c)
    (hbuilt : ∀ e ∈ entries, buildMethod cb ask c e.1 = .ok e.2) (keep : MethodDecl → Bool) :
    buildClass cb ask keep c = .ok
      { classHeader c with
        methods := ((arrangeEntries entries).filter fun e => keep e.1).map Prod.snd } := by
  rw [← arrangeEntries_filter]
  refine buildClass_eq_ok_iff_entries.mpr ⟨entries.filter fun e => keep e.1, ?_, ?_, rfl⟩
  · rw [members_eq_filter_keepAll, ← hds, List.filter_map]
    rfl
  · intro e he
    exact hbuilt e (List.mem_filter.mp he).1

end Ask

theorem MemberFilter.accepts_empty : ({} : MemberFilter).accepts = keepAll := by
  funext d
  rfl

namespace Codebase

variable {cb : Codebase} {s s' t : Session} {name : Text} {u : ClassDoc}

/-- **A filter only hides methods.**  If a class is documented without a filter, then it is documented with
every choice of methods, also in another session: with a filter's properties, and with any test of names in the
place of its pattern.  All that is said about the class itself stays.  Each method on the page belongs to one
member of the class, from whose declaration and donor it was documented; the methods that remain are those of
which this declaration is chosen, as they were and where they were. -/
theorem Reached.filter_only_hides (hs : cb.Reached s) (hschain : s.chain = [])
    (h : Returns (cb.documentM ({} : MemberFilter).accepts name) s (.ok u) s') (ht : cb.Reached t)
    (htchain : t.chain = []) (keep : MethodDecl → Bool) :
    ∃ v t' c, ∃ entries : List Entry,
      Returns (cb.documentM keep name) t (.ok v) t' ∧
      cb.index.find? name = some c ∧
      (entries.map Prod.fst).Perm (c.methods.filter fun d => decide (d.BelongsTo c)) ∧
      (∀ e ∈ entries, cb.DocumentedAs c e.1 e.2) ∧
      u.methods = entries.map Prod.snd ∧
      v = { u with methods := (entries.filter fun e => keep e.1).map Prod.snd } := by
  rw [MemberFilter.accepts_empty] at h
  obtain ⟨c, hf, hb⟩ := hs.exists_buildClass hschain h
  obtain ⟨entries, hds, hbuilt, rfl⟩ := buildClass_eq_ok_iff_entries.mp hb
  obtain ⟨t', hr, _⟩ := documentM_eq_document keep name ht.valid htchain
  rw [document_known hf, buildClass_of_entries hds hbuilt keep] at hr
  have hperm := arrangeEntries_perm entries
  -- nothing depends on what the header of the class is
  generalize classHeader c = header at hr ⊢
  refine ⟨_, t', c, arrangeEntries entries, hr, hf, ?_, ?_, rfl, rfl⟩
  · have hmembers : entries.map Prod.fst = c.methods.filter fun d => decide (d.BelongsTo c) := by
      rw [hds, members_eq_filter]
      simp only [keepAll, Bool.true_and]
    rw [← hmembers]
    exact hperm.map Prod.fst
  · intro e he
    exact documentedAs_of_buildMethod (hbuilt e (hperm.mem_iff.mp he))

/-! ### A page with and without a filter -/

namespace Report

/-- Public methods whose names do not start with a certain letter. -/
def publicOnly : MemberFilter :=
  { properties := [.pub], pattern := some ⟨"^[^c]", fun name => name.head?.any (· != 'c')⟩ }

end Report

/-- Of six methods four remain: one of the others is protected and one has the wrong name.  The method that
inherits its documentation remains, because it is declared as public, although its donor is protected. -/
theorem office_filter_only_hides :
    ∃ u v s' t', ∃ entries : List Entry, office.Reached {} ∧
      Returns (office.documentM ({} : MemberFilter).accepts "Report") {} (.ok u) s' ∧
      Returns (office.documentM Report.publicOnly.accepts "Report") {} (.ok v) t' ∧
      u.methods.length = 6 ∧ v.methods.length = 4 ∧
      (∀ e ∈ entries, office.DocumentedAs Report.report e.1 e.2) ∧
      u.methods = entries.map Prod.snd ∧
      v = { u with methods := (entries.filter fun e => Report.publicOnly.accepts e.1).map Prod.snd } := by
  have hs : office.Reached {} := .start
  -- The lengths follow from the permutation, since the sorted methods do not evaluate.
  have hpage : (office.document ({} : MemberFilter).accepts "Report").toOption.map (fun _ => ()) =
      some () := by
    decide +kernel
  obtain ⟨u, s', hr, _⟩ := exists_page ({} : MemberFilter).accepts "Report" hpage hs.valid rfl
  obtain ⟨v, t', c, entries, ht, hc, hperm, hdocs, hu, hv⟩ :=
    hs.filter_only_hides rfl hr hs rfl Report.publicOnly.accepts
  have hfind : office.index.find? "Report" = some Report.report := by decide +kernel
  obtain rfl : Report.report = c := Option.some.inj (hfind.symm.trans hc)
  have hall : (Report.report.methods.filter fun d => decide (d.BelongsTo Report.report)).length = 6 := by
    decide +kernel
  have hkept : ((Report.report.methods.filter fun d => decide (d.BelongsTo Report.report)).filter
      Report.publicOnly.accepts).length = 4 := by
    decide +kernel
  refine ⟨u, v, s', t', entries, hs, hr, ht, ?_, ?_, hdocs, hu, hv⟩
  · rw [hu, List.length_map, ← List.length_map Prod.fst, hperm.length_eq, hall]
  · have hlength := (hperm.filter Report.publicOnly.accepts).length_eq
    rw [List.filter_map, List.length_map, hkept] at hlength
    rw [hv, List.length_map]
    exact hlength

end Codebase

end ApiPages
