import ApiPages.Proofs.Failure

/-! # Missing donors

A method is reported to have no donor by the class that documents it, after the whole search order answered.
Each of the classes asked has its own methods with their names, up to letter case, also those that are
inherited in turn (`exists_method_of_member`); and the search order leaves out no ancestor and no interface.  So
none of these classes documents a method of that name. -/

namespace ApiPages

open SessionM Relation

theorem Text.sameLetters_iff {s t : Text} : sameLetters s t = true ↔ lower s = lower t :=
  beq_iff_eq

theorem Text.sameLetters_refl (s : Text) : sameLetters s s = true :=
  sameLetters_iff.mpr rfl

section Ask

variable {cb : Codebase} {ask : Text → Except DocError (Option ClassDoc)} {keep : MethodDecl → Bool}
  {c : ClassDecl} {d : MethodDecl} {doc : ClassDoc} {f : MethodDoc}

theorem sameLetters_of_buildMethod (h : buildMethod cb ask c d = .ok f) :
    Text.sameLetters f.name d.name = true := by
  cases hi : d.inheritsDoc c with
  | false =>
      rw [buildMethod, hi] at h
      cases h
      exact Text.sameLetters_refl d.name
  | true =>
      obtain ⟨found, hfind, rfl⟩ := buildMethod_inherits hi h
      obtain ⟨_, _, _, _, _, _, _, hfound⟩ := firstDonor_eq_some_iff.mp (firstDonor_of_findDonor hfind)
      rw [adopt_name]
      have hm := List.find?_some hfound
      exact hm

theorem exists_method_of_member (h : buildClass cb ask keep c = .ok doc) (hd : d ∈ members keep c) :
    ∃ f ∈ doc.methods, Text.sameLetters f.name d.name = true := by
  obtain ⟨methods, hall, rfl⟩ := buildClass_eq_ok_iff.mp h
  obtain ⟨f, hf, hb⟩ := exists_mem_of_mapM (mapM_eq_ok_iff.mpr hall) hd
  exact ⟨f, (arrange_perm methods).mem_iff.mpr hf, sameLetters_of_buildMethod hb⟩

theorem sameLetters_eq_false_of_method?_eq_none {method : Text} (h : buildClass cb ask keep c = .ok doc)
    (hnone : doc.method? method = none) (hd : d ∈ members keep c) :
    Text.sameLetters d.name method = false := by
  obtain ⟨f, hf, hfd⟩ := exists_method_of_member h hd
  have hfm := List.find?_eq_none.mp hnone f hf
  rw [Bool.eq_false_iff]
  intro hdm
  rw [Text.sameLetters_iff] at hfd hfm hdm
  exact hfm (hfd.trans hdm)

end Ask

namespace Codebase

variable {cb : Codebase} {p q : ClassDecl} {chain : List Text} {method : Text}

/-- If no donor is found, then no ancestor and no interface documents such a method. -/
theorem sameLetters_eq_false_of_findDonor
    (h : findDonor cb.index (cb.resolve chain) p method = .ok none)
    (hq : TransGen cb.index.Extends p q ∨ cb.index.InheritsInterface p q) {d : MethodDecl}
    (hd : d.BelongsTo q) : Text.sameLetters d.name method = false := by
  obtain ⟨hl, hasked⟩ := findDonor_eq_none h
  obtain ⟨n, hn, hf⟩ := ClassIndex.exists_mem_searchOrder hl hq
  obtain ⟨doc?, hr, hnone⟩ := hasked n hn
  obtain ⟨doc, rfl, hb⟩ := buildClass_of_resolve hf hr
  exact sameLetters_eq_false_of_method?_eq_none hb hnone (mem_members_iff.mpr ⟨rfl, hd⟩)

/-- **A missing donor is reported rightly, and for the method that misses it.**  The report names a class that is
the requested one or reached from it, and a method that this class documents and that inherits its
documentation; if it is the requested class, then the method is one of those that were chosen.  No known class
to which its parents lead, and no known interface to which its interfaces and those of its ancestors lead,
documents a method of that name, up to letter case. -/
theorem Reached.missing_donor_justified {s s' : Session} {keep : MethodDecl → Bool}
    {name className : Text} (hs : cb.Reached s) (hchain : s.chain = [])
    (h : Returns (cb.documentM keep name) s (.error (.noDonor className method)) s') :
    ∃ c p d, cb.index.find? name = some c ∧ cb.index.Reaches c p ∧ p ∈ cb.index.classes ∧
      className = ClassName.display p.name ∧ d.name = method ∧ d.BelongsTo p ∧
      d.inheritsDoc p = true ∧ (p = c → keep d = true) ∧
      ∀ q, TransGen cb.index.Extends p q ∨ cb.index.InheritsInterface p q →
        ∀ d' : MethodDecl, d'.BelongsTo q → Text.sameLetters d'.name method = false := by
  rcases hs.exists_failure hchain h with he | ⟨c, hf, hfail⟩
  · cases he
  · cases hfail with
    | @noDonor _ p d hn hm hkeep hi hnone =>
        have hp := mem_classes_of_reaches (ClassIndex.mem_of_find? hf) hn.reaches
        refine ⟨c, p, d, hf, hn.reaches, hp, rfl, rfl, (mem_members_iff.mp hm).2, hi, hkeep, ?_⟩
        intro q hq d' hd'
        exact sameLetters_eq_false_of_findDonor hnone hq hd'

/-! ### A class that inherits what nobody documents -/

namespace Orphan

def halt : MethodDecl := inheriting "halt"

/-- Has a method of the name that it shows to nobody. -/
def base : ClassDecl :=
  { name := "Base", methods := [{ name := "halt", visibility := .priv }] }

/-- Has a method of the name that it ignores, and extends an interface that nobody knows. -/
def stoppable : ClassDecl :=
  { name := "Stoppable", isInterface := true, interfaces := ["Gone"],
    methods := [{ name := "HALT", comment := some "/** @ignore */" }] }

def worker : ClassDecl :=
  { name := "Worker", parent := some "Base", interfaces := ["Stoppable"], methods := [halt] }

/-- Inherits the method from a class that cannot inherit it. -/
def crew : ClassDecl := { name := "Crew", parent := some "Worker", methods := [halt] }

end Orphan

open Orphan

def orphan : Codebase :=
  ⟨⟨[crew, worker, Orphan.base, stoppable], by decide⟩, ⟨fun _ => .error .missing⟩⟩

theorem orphan_interfaceOrder : orphan.index.interfaceOrder worker = ["\\Stoppable".toList] := by
  have hfirst : worker.interfaceNames ++
      ((orphan.index.ancestry worker).ancestors.flatMap fun a => a.2.interfaceNames) =
        ["\\Stoppable".toList] := by decide +kernel
  have hnext : [] ++ stoppable.interfaceNames = ["\\Gone".toList] := by decide +kernel
  have hknown : orphan.index.find? "\\Stoppable" = some stoppable := by decide +kernel
  have hunknown : orphan.index.find? "\\Gone" = none := by decide +kernel
  rw [ClassIndex.interfaceOrder, hfirst, ClassIndex.interfacesFrom_known List.not_mem_nil hknown, hnext,
    ClassIndex.interfacesFrom_unknown hunknown, ClassIndex.interfacesFrom_nil]

theorem orphan_findDonor :
    findDonor orphan.index (orphan.resolve [ClassName.key "\\Worker", crew.key]) worker halt.name =
      .ok none := by
  have hnames : (orphan.index.ancestry worker).names = ["\\Base".toList] := by decide +kernel
  have hloop : (orphan.index.ancestry worker).loop = none := by decide +kernel
  have hbase : firstDonor (orphan.resolve [ClassName.key "\\Worker", crew.key]) halt.name
      ["\\Base".toList] = .ok none := by decide +kernel
  have hstop : firstDonor (orphan.resolve [ClassName.key "\\Worker", crew.key]) halt.name
      ["\\Stoppable".toList] = .ok none := by decide +kernel
  rw [findDonor, hnames, hbase, hloop, orphan_interfaceOrder]
  exact hstop

theorem orphan_document :
    orphan.document keepAll "Crew" = .error (.noDonor "\\Worker" "halt") := by
  have hworker : buildClass orphan (orphan.resolve [ClassName.key "\\Worker", crew.key]) keepAll worker =
      .error (.noDonor "\\Worker" "halt") := by
    have hm : members keepAll worker = [halt] := by decide +kernel
    have hi : halt.inheritsDoc worker = true := by decide +kernel
    rw [buildClass, hm, List.mapM_cons, buildMethod, if_pos hi, inherit, orphan_findDonor]
    rfl
  have hasked : orphan.resolve [crew.key] "\\Worker" = .error (.noDonor "\\Worker" "halt") := by
    rw [resolve_known (by decide +kernel) (by decide +kernel : _ = some worker), hworker]
    rfl
  have hm : members keepAll crew = [halt] := by decide +kernel
  have hi : halt.inheritsDoc crew = true := by decide +kernel
  have hnames : (orphan.index.ancestry crew).names = ["\\Worker".toList, "\\Base".toList] := by
    decide +kernel
  rw [document_known (by decide +kernel : _ = some crew), buildClass, hm, List.mapM_cons, buildMethod,
    if_pos hi, inherit, findDonor, hnames, firstDonor_cons_error hasked]
  rfl

/-- The parent of the requested class is blamed, which has neither an ancestor nor an interface to inherit
from. -/
theorem orphan_missing_donor_justified :
    ∃ s', orphan.Reached {} ∧
      Returns (orphan.documentM keepAll "Crew") {} (.error (.noDonor "\\Worker" "halt")) s' ∧
      ∃ (c p : ClassDecl) (d : MethodDecl), orphan.index.find? "Crew" = some c ∧ orphan.index.Reaches c p ∧
        ("\\Worker" : Text) = ClassName.display p.name ∧ d.name = "halt".toList ∧ d.BelongsTo p ∧
        d.inheritsDoc p = true ∧
        ∀ q, TransGen orphan.index.Extends p q ∨ orphan.index.InheritsInterface p q →
          ∀ d' : MethodDecl, d'.BelongsTo q → Text.sameLetters d'.name "halt" = false := by
  have hs : orphan.Reached {} := .start
  obtain ⟨s', hr, _⟩ := documentM_eq_document keepAll "Crew" hs.valid rfl
  rw [orphan_document] at hr
  obtain ⟨c, p, d, hc, hp, _, hclass, hname, hd, hi, _, hno⟩ := hs.missing_donor_justified rfl hr
  exact ⟨s', hs, hr, c, p, d, hc, hp, hclass, hname, hd, hi, hno⟩

end Codebase

end ApiPages
