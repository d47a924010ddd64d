import Mathlib.Logic.Relation
import ApiPages.Proofs.Donor

/-! # Where documented methods come from

Inherited documentation may have been inherited before.  `Codebase.StemsFrom` follows it to the declaration from
which it was made: it holds of the methods of a class if it holds of those of the classes that it asks
(`stemsFrom_of_buildClass`), so it holds of all that a session remembers (`Justified.stemsFrom`). -/

namespace ApiPages

open SessionM

namespace ClassIndex

variable {ix : ClassIndex} {c p : ClassDecl} {name : Text}

/-- A class names a known class as its parent or as one of its interfaces. -/
def Refers (ix : ClassIndex) (c p : ClassDecl) : Prop :=
  ∃ name, (c.parentName? = some name ∨ name ∈ c.interfaceNames) ∧ ix.find? name = some p

/-- A class leads to another one through parents and interfaces, or is that class. -/
def Reaches (ix : ClassIndex) : ClassDecl → ClassDecl → Prop :=
  Relation.ReflTransGen ix.Refers

/-- A class leads to another one through one or more references. -/
def LeadsTo (ix : ClassIndex) : ClassDecl → ClassDecl → Prop :=
  Relation.TransGen ix.Refers

theorem leadsTo_of_mem_ancestors {visited : List Text}
    (h : (name, p) ∈ (ix.ancestryFrom visited c).ancestors) : ix.LeadsTo c p := by
  induction visited, c using ancestryFrom.induct ix with
  | case1 visited c hp => rw [ancestryFrom_root hp] at h; cases h
  | case2 visited c n hp hv => rw [ancestryFrom_loop hp hv] at h; cases h
  | case3 visited c n hp hv hf => rw [ancestryFrom_unknown hp hv hf] at h; cases h
  | case4 visited c n hp hv q hf ih =>
      have hstep : ix.Refers c q := ⟨n, .inl hp, hf⟩
      rw [ancestryFrom_known hp hv hf] at h
      rcases List.mem_cons.mp h with h | h
      · obtain ⟨rfl, rfl⟩ := Prod.mk.inj h
        exact .single hstep
      · exact .head hstep (ih h)

/-- An interface that a search comes to is reached from a name of the queue. -/
theorem reaches_of_mem_interfacesFrom {visited queue : List Text}
    (h : name ∈ ix.interfacesFrom visited queue) (hp : ix.find? name = some p) :
    ∃ first ∈ queue, ∃ q, ix.find? first = some q ∧ ix.Reaches q p := by
  induction visited, queue using interfacesFrom.induct ix with
  | case1 visited => rw [interfacesFrom_nil] at h; cases h
  | case2 visited n queue hv ih =>
      rw [interfacesFrom_visited hv] at h
      obtain ⟨first, hm, hq⟩ := ih h
      exact ⟨first, List.mem_cons_of_mem n hm, hq⟩
  | case3 visited n queue hv hc ih =>
      rw [interfacesFrom_unknown hc] at h
      obtain ⟨first, hm, hq⟩ := ih h
      exact ⟨first, List.mem_cons_of_mem n hm, hq⟩
  | case4 visited n queue hv q hc ih =>
      rw [interfacesFrom_known hv hc] at h
      rcases List.mem_cons.mp h with rfl | h
      · rw [hp] at hc
        cases hc
        exact ⟨name, List.mem_cons_self, p, hp, .refl⟩
      · obtain ⟨first, hm, q', hq', hr⟩ := ih h
        rcases List.mem_append.mp hm with hm | hm
        · exact ⟨first, List.mem_cons_of_mem n hm, q', hq', hr⟩
        · exact ⟨n, List.mem_cons_self, q, hc, .head ⟨first, .inr hm, hq'⟩ hr⟩

theorem leadsTo_of_mem_searchOrder (h : name ∈ ix.searchOrder c) (hp : ix.find? name = some p) :
    ix.LeadsTo c p := by
  rw [searchOrder_eq, List.mem_append] at h
  rcases h with h | h
  · obtain ⟨⟨n, q⟩, hq, rfl⟩ := List.mem_map.mp h
    rw [find?_of_mem_ancestors hq] at hp
    cases hp
    exact leadsTo_of_mem_ancestors hq
  · obtain ⟨first, hm, q, hq, hr⟩ := reaches_of_mem_interfacesFrom h hp
    rcases List.mem_append.mp hm with hm | hm
    · exact .head' ⟨first, .inr hm, hq⟩ hr
    · obtain ⟨⟨n, a⟩, ha, hm⟩ := List.mem_flatMap.mp hm
      exact (leadsTo_of_mem_ancestors ha).trans (.head' ⟨first, .inr hm, hq⟩ hr)

end ClassIndex

/-! ### Declarations -/

/-- A method of a class that is documented by its own comment: it does not ask to inherit its documentation. -/
structure MethodDecl.Documents (d : MethodDecl) (c : ClassDecl) : Prop extends d.BelongsTo c where
  ownComment : d.inheritsDoc c = false

theorem documents_of_mem_members {keep : MethodDecl → Bool} {c : ClassDecl} {d : MethodDecl}
    (hm : d ∈ members keep c) (hd : d.inheritsDoc c = false) : d.Documents c :=
  ⟨(mem_members_iff.mp hm).2, hd⟩

namespace Codebase

variable {cb : Codebase} {c p : ClassDecl} {f : MethodDoc}

/-- The documentation of a method was made from a declaration of a class that `c` reaches, and at most is no
longer abstract. -/
def StemsFrom (cb : Codebase) (c : ClassDecl) (f : MethodDoc) : Prop :=
  ∃ (p : ClassDecl) (d : MethodDecl), cb.index.Reaches c p ∧ d.Documents p ∧
    (f = cb.describe p d ∨ f = { cb.describe p d with isAbstract := false })

theorem StemsFrom.of_reaches (hr : cb.index.Reaches c p) (h : cb.StemsFrom p f) :
    cb.StemsFrom c f := by
  obtain ⟨q, d, hq, hd⟩ := h
  exact ⟨q, d, hr.trans hq, hd⟩

theorem StemsFrom.adopt (h : cb.StemsFrom c f) (c' : ClassDecl) (d : MethodDecl) :
    cb.StemsFrom c (adopt c' d f) := by
  unfold ApiPages.adopt
  split
  · exact h
  · obtain ⟨p, d, hp, hd, hf⟩ := h
    refine ⟨p, d, hp, hd, .inr ?_⟩
    generalize cb.describe p d = g at hf ⊢
    rcases hf with rfl | rfl <;> rfl

/-- If the methods of all other classes stem from declarations, then so do those of a class that asks these
classes. -/
theorem stemsFrom_of_buildClass {ask : Text → Except DocError (Option ClassDoc)}
    (hask : ∀ name p doc, cb.index.find? name = some p → ask name = .ok (some doc) →
      ∀ f ∈ doc.methods, cb.StemsFrom p f)
    {keep : MethodDecl → Bool} {doc : ClassDoc} (h : buildClass cb ask keep c = .ok doc) :
    ∀ f ∈ doc.methods, cb.StemsFrom c f := by
  intro f hf
  obtain ⟨d, hd, hb⟩ := exists_member_of_buildClass h hf
  cases hi : d.inheritsDoc c with
  | false =>
      rw [buildMethod, hi] at hb
      cases hb
      exact ⟨c, d, .refl, documents_of_mem_members hd hi, .inl rfl⟩
  | true =>
      obtain ⟨found, hfind, rfl⟩ := buildMethod_inherits hi hb
      obtain ⟨before, donor, after, other, horder, _, hdonor, hfound⟩ :=
        firstDonor_eq_some_iff.mp (firstDonor_of_findDonor hfind)
      rw [← ClassIndex.searchOrder_eq] at horder
      have hmem : donor ∈ cb.index.searchOrder c := by simp [horder]
      obtain ⟨p, hp⟩ := ClassIndex.known_of_mem_searchOrder hmem
      have hstems := hask donor p other hp hdonor found (List.mem_of_find?_eq_some hfound)
      have hleads := ClassIndex.leadsTo_of_mem_searchOrder hmem hp
      exact (hstems.of_reaches hleads.to_reflTransGen).adopt c d

theorem Justified.stemsFrom {cache : Cache} (hj : cb.Justified cache) {name : Text}
    (hc : cb.index.find? name = some c) {doc : ClassDoc}
    (hd : cache.find? (ClassName.key name) = some doc) : ∀ f ∈ doc.methods, cb.StemsFrom c f := by
  induction hj generalizing name c doc with
  | nil => cases hd
  | @add cache n c' d _ hn _ hb ih =>
      rcases Cache.find?_append_cases hd with hd | ⟨_, hkey, rfl⟩
      · exact ih hc hd
      · rw [ClassIndex.find?_congr hkey, hn] at hc
        cases hc
        refine stemsFrom_of_buildClass ?_ hb
        intro name p other hp hr
        obtain ⟨_, hdoc, hother⟩ := find?_of_remembered hp hr
        cases hdoc
        exact ih hp hother

theorem mem_classes_of_reaches (hc : c ∈ cb.index.classes) (h : cb.index.Reaches c p) :
    p ∈ cb.index.classes := by
  rcases h.cases_tail with rfl | ⟨_, _, _, _, hf⟩
  · exact hc
  · exact ClassIndex.mem_of_find? hf

/-- **Every documented method stems from a declaration.**  Its class is a known one that is reached from the
documented class through parents and interfaces.  There the method is declared under its name, it is not
private, not ignored, and documented by its own comment; and its documentation is the one made from that
declaration, except that it may have ceased to be abstract. -/
theorem Reached.methods_stem_from_declarations {s s' : Session} {keep : MethodDecl → Bool}
    {name : Text} {e : ClassDoc} (hs : cb.Reached s) (hchain : s.chain = [])
    (h : Returns (cb.documentM keep name) s (.ok e) s') (hf : f ∈ e.methods) :
    ∃ c p d, cb.index.find? name = some c ∧ cb.index.Reaches c p ∧ p ∈ cb.index.classes ∧
      f.className = ClassName.display p.name ∧ d.name = f.name ∧ d.Documents p ∧
      (f = cb.describe p d ∨ f = { cb.describe p d with isAbstract := false }) := by
  obtain ⟨r, t, hr, ht, _, hdoc⟩ := performs_documentM keep name hs.valid hchain
  obtain ⟨rfl, rfl⟩ := h.unique hr
  obtain ⟨c, hc, hb⟩ := hdoc e rfl
  have hask : ∀ n p doc, cb.index.find? n = some p → cb.remembered s'.cache n = .ok (some doc) →
      ∀ f ∈ doc.methods, cb.StemsFrom p f := by
    intro n p doc hp hr
    obtain ⟨_, hdoc, hd⟩ := find?_of_remembered hp hr
    cases hdoc
    exact ht.cache.stemsFrom hp hd
  obtain ⟨p, d, hp, hd, heq⟩ := stemsFrom_of_buildClass hask hb f hf
  refine ⟨c, p, d, hc, hp, mem_classes_of_reaches (ClassIndex.mem_of_find? hc) hp, ?_, ?_, hd, heq⟩
  · rcases heq with rfl | rfl <;> rfl
  · rcases heq with rfl | rfl <;> rfl

/-! ### Two classes that extend each other -/

open Twins

theorem twins_document_task :
    twins.document keepAll "Task" =
      .ok { classHeader task with
        methods := arrange [adopt task run (twins.describe base baseRun)] } := by
  have hm : members keepAll task = [run] := by decide +kernel
  rw [document_known twins_find_task]
  refine buildClass_eq_ok_iff.mpr ⟨_, ?_, rfl⟩
  rw [hm]
  exact .cons twins_buildMethod_run .nil

/-- The inherited method: it has the name, the description and the class of its donor, but is no longer abstract. -/
def Twins.inherited : MethodDoc :=
  { name := "Run", description := "Runs.", className := "\\Base" }

/-- The method of the first class stems from the declaration in the second. -/
theorem twins_methods_stem_from_declarations :
    ∃ e s', twins.Reached {} ∧ Returns (twins.documentM keepAll "Task") {} (.ok e) s' ∧
      inherited ∈ e.methods ∧ ∃ (c p : ClassDecl) (d : MethodDecl), twins.index.find? "Task" = some c ∧
        twins.index.Reaches c p ∧ ClassName.display p.name = "\\Base" ∧ d.name = "Run" ∧ d.Documents p ∧
        (inherited = twins.describe p d ∨ inherited = { twins.describe p d with isAbstract := false }) := by
  have hs : twins.Reached {} := .start
  obtain ⟨s', hr, _⟩ := documentM_eq_document keepAll "Task" hs.valid rfl
  have hadopt : adopt task run (twins.describe base baseRun) = inherited := by decide +kernel
  rw [twins_document_task, hadopt] at hr
  have hf : inherited ∈ arrange [inherited] := by simp [arrange, inherited]
  obtain ⟨c, p, d, hc, hp, _, hclass, hname, hd, heq⟩ :=
    hs.methods_stem_from_declarations rfl hr hf
  exact ⟨_, s', hs, hr, hf, c, p, d, hc, hp, hclass.symm, hname, hd, heq⟩

end Codebase

end ApiPages
