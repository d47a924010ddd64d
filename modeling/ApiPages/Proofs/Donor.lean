import ApiPages.Proofs.Memory

/-! # The donor of an inherited method

A method that inherits its documentation takes it from the first class that has such a method in the order of
`ClassIndex.searchOrder`: the ancestors, nearest first, and then the interfaces, level by level. -/

namespace ApiPages

open SessionM

namespace ClassIndex

variable {ix : ClassIndex} {c : ClassDecl} {name : Text}

/-- The classes that are asked for the documentation of an inherited method: the known ancestors, nearest
first; then the interfaces of the class and of its ancestors, and those that they extend, level by level. -/
def searchOrder (ix : ClassIndex) (c : ClassDecl) : List Text :=
  (ix.ancestry c).names ++ ix.levelOrder [] (ix.firstInterfaces c)

theorem searchOrder_eq (c : ClassDecl) :
    ix.searchOrder c = (ix.ancestry c).names ++ ix.interfaceOrder c := by
  rw [searchOrder, interfaceOrder_eq_levelOrder]

theorem known_of_mem_searchOrder (h : name ∈ ix.searchOrder c) : ∃ p, ix.find? name = some p := by
  rw [searchOrder_eq, List.mem_append] at h
  rcases h with h | h
  · obtain ⟨⟨n, p⟩, hp, rfl⟩ := List.mem_map.mp h
    exact ⟨p, find?_of_mem_ancestors hp⟩
  · have hk := (key_notMem_of_mem_interfacesFrom h).2
    cases hf : ix.find? name with
    | none => exact absurd hk (find?_eq_none_iff.mp hf)
    | some p => exact ⟨p, rfl⟩

end ClassIndex

namespace Codebase

variable {cb : Codebase} {s s' : Session} {c : ClassDecl} {d : MethodDecl}

theorem buildMethod_of_returns {ask : Text → SessionM (Option ClassDoc)}
    (hl : cb.Answers s.chain ask) (hs : s.Valid cb) {f : MethodDoc}
    (h : Returns (cb.buildMethodM ask c d) s (.ok f) s') :
    s'.Valid cb ∧ cb.Advance s s' ∧ buildMethod cb (cb.remembered s'.cache) c d = .ok f := by
  obtain ⟨r, t, hr, ht, ha, hx⟩ := (cb.onChain s.chain).rel_buildMethod hl.performs cb c d s hs rfl
  obtain ⟨rfl, rfl⟩ := h.unique ((run_buildMethodM hl c d hs rfl).trans hr)
  refine ⟨ht, ha, ?_⟩
  rw [← hx s'.cache (List.prefix_refl _) f rfl]
  exact ((atMemory s'.cache).rel_buildMethod (atMemory_rememberedM cb s'.cache) cb c d).symm

/-- **A method inherits from the first class of the search order that has it.**  The classes before this
donor do not have such a method, when they are documented with all their methods.  The method gets all that
the donor says about it, except that it is not abstract unless it or its class is.  The donor is then
remembered as it is, and so is whatever was remembered before. -/
theorem Reached.inherits_from_first {depth : Nat} {f : MethodDoc} (hs : cb.Reached s)
    (hroom : (cb.index.unvisited s.chain).length ≤ depth) (hd : d.inheritsDoc c = true)
    (h : Returns (cb.buildMethodM (cb.resolveM depth) c d) s (.ok f) s') :
    ∃ before donor after doc found,
      cb.index.searchOrder c = before ++ donor :: after ∧
      (∀ name ∈ before, ∃ other, cb.firstAnswer keepAll name = some (.ok other) ∧
        other.method? d.name = none) ∧
      cb.firstAnswer keepAll donor = some (.ok doc) ∧
      doc.method? d.name = some found ∧
      f = (if d.isAbstract || c.isAbstract then found else { found with isAbstract := false }) ∧
      s'.cache.find? (ClassName.key donor) = some doc ∧
      ∀ k doc, s.cache.find? k = some doc → s'.cache.find? k = some doc := by
  obtain ⟨hv, ha, hb⟩ := buildMethod_of_returns (answers cb hroom) hs.valid h
  obtain ⟨found, hf, rfl⟩ := buildMethod_inherits hd hb
  have hfirst := firstDonor_of_findDonor hf
  rw [← ClassIndex.searchOrder_eq] at hfirst
  obtain ⟨before, donor, after, doc, horder, hbefore, hdonor, hfound⟩ :=
    firstDonor_eq_some_iff.mp hfirst
  have hknown : ∀ name ∈ before ++ donor :: after, ∃ p, cb.index.find? name = some p := by
    rw [← horder]
    exact fun _ => ClassIndex.known_of_mem_searchOrder
  obtain ⟨p, hp⟩ := hknown donor (by simp)
  obtain ⟨_, hdoc, hcached, hfresh⟩ := hv.cache.firstAnswer_of_remembered hp hdonor
  cases hdoc
  refine ⟨before, donor, after, doc, found, horder, ?_, hfresh, hfound, rfl, hcached, ?_⟩
  · intro name hn
    obtain ⟨doc?, hr, hnone⟩ := hbefore name hn
    obtain ⟨q, hq⟩ := hknown name (List.mem_append_left _ hn)
    obtain ⟨other, rfl, _, hother⟩ := hv.cache.firstAnswer_of_remembered hq hr
    exact ⟨other, hother, hnone⟩
  · intro k doc hk
    exact Cache.find?_of_prefix ha.cache hk

/-! ### Two classes that extend each other -/

open Twins

theorem twins_resolve_base :
    twins.resolve [task.key] "\\Base" =
      .ok (some { classHeader base with methods := arrange [twins.describe base baseRun] }) := by
  have hbuilt : buildClass twins (twins.resolve [ClassName.key "\\Base", task.key]) keepAll base =
      .ok { classHeader base with methods := arrange [twins.describe base baseRun] } := by
    have hm : members keepAll base = [baseRun] := by decide +kernel
    have hi : baseRun.inheritsDoc base = false := by decide +kernel
    refine buildClass_eq_ok_iff.mpr ⟨[twins.describe base baseRun], ?_, rfl⟩
    rw [hm]
    refine .cons ?_ .nil
    rw [buildMethod, hi]
    rfl
  rw [resolve_known (by decide +kernel) twins_find_base, hbuilt]
  rfl

theorem twins_buildMethod_run :
    buildMethod twins (twins.resolve [task.key]) task run =
      .ok (adopt task run (twins.describe base baseRun)) := by
  have hi : run.inheritsDoc task = true := by decide +kernel
  have hnames : (twins.index.ancestry task).names = ["\\Base".toList] := by decide +kernel
  have hmethod : (some { classHeader base with methods := arrange [twins.describe base baseRun] } :
      Option ClassDoc).bind (·.method? run.name) = some (twins.describe base baseRun) := by
    have hacc : (twins.describe base baseRun).access = .pub := rfl
    have hname : Text.sameLetters (twins.describe base baseRun).name run.name = true := by
      decide +kernel
    simp [ClassDoc.method?, arrange, hacc, hname]
  rw [buildMethod, if_pos hi, inherit, findDonor, hnames, firstDonor_cons_ok twins_resolve_base,
    hmethod]
  rfl

/-- The class that is asked for first, and the method of its parent under another spelling. -/
theorem twins_inherits_from_first :
    ∃ s', twins.Reached (({} : Session).enter task.key) ∧ run.inheritsDoc task = true ∧
      Returns (twins.buildMethodM (twins.resolveM 1) task run) (({} : Session).enter task.key)
        (.ok (adopt task run (twins.describe base baseRun))) s' ∧
      ∃ before donor after doc found,
        twins.index.searchOrder task = before ++ donor :: after ∧
        twins.firstAnswer keepAll donor = some (.ok doc) ∧
        doc.method? run.name = some found ∧
        s'.cache.find? (ClassName.key donor) = some doc := by
  have hs : twins.Reached (({} : Session).enter task.key) := .request .start twins_find_task
  have hi : run.inheritsDoc task = true := by decide +kernel
  have hu : twins.Unremembered [task.key] [] :=
    Unremembered.cons (List.forall_mem_nil _) (by decide +kernel) rfl
  have hroom : (twins.index.unvisited [task.key]).length ≤ 1 := by decide +kernel
  obtain ⟨s', hr, _⟩ := (twins.anew [task.key]).rel_buildMethod (answersAnew twins hroom) twins task
    run _ hs.valid rfl hu
  rw [twins_buildMethod_run] at hr
  replace hr := (run_buildMethodM (answers twins hroom) task run hs.valid rfl).trans hr
  obtain ⟨before, donor, after, doc, found, horder, _, hanswer, hfound, _, hcached, _⟩ :=
    hs.inherits_from_first hroom hi hr
  exact ⟨s', hs, hi, hr, before, donor, after, doc, found, horder, hanswer, hfound, hcached⟩

end Codebase

end ApiPages
