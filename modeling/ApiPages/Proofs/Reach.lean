import ApiPages.Proofs.Provenance

/-! # The hierarchy as a relation between classes

`ClassIndex.Extends` and `ClassIndex.Implements` are the single references from a known class to a known one.
The orders in which classes are asked leave none out: unless the chain of parents comes back, the search order
of a class has all its ancestors and all interfaces that they lead to (`exists_mem_searchOrder`).  A chain of
parents that runs into itself (`ClassIndex.Loops`) is always noticed (`loop_of_loops`). -/

namespace ApiPages

open Relation

namespace ClassIndex

variable {ix : ClassIndex} {c p q : ClassDecl} {name : Text} {visited queue : List Text}

/-- A class names a known class as its parent. -/
def Extends (ix : ClassIndex) (c p : ClassDecl) : Prop :=
  ∃ name, c.parentName? = some name ∧ ix.find? name = some p

/-- A class names a known class as one of its interfaces. -/
def Implements (ix : ClassIndex) (c p : ClassDecl) : Prop :=
  ∃ name ∈ c.interfaceNames, ix.find? name = some p

/-- An interface of a class or of one of its ancestors, or one that such an interface extends. -/
def InheritsInterface (ix : ClassIndex) (c q : ClassDecl) : Prop :=
  ∃ a, ReflTransGen ix.Extends c a ∧ TransGen ix.Implements a q

/-- The chain of parents of a class runs through known classes only and comes to one of them twice. -/
def Loops (ix : ClassIndex) (c : ClassDecl) : Prop :=
  ∃ p, ReflTransGen ix.Extends c p ∧ TransGen ix.Extends p p

theorem Extends.unique (h : ix.Extends c p) (h' : ix.Extends c q) : p = q := by
  obtain ⟨n, hn, hp⟩ := h
  obtain ⟨n', hn', hq⟩ := h'
  rw [hn] at hn'
  cases hn'
  rw [hp] at hq
  exact Option.some.inj hq

theorem eq_of_find?_of_key (hp : ix.find? name = some p) (hq : q ∈ ix.classes)
    (hk : q.key = ClassName.key name) : p = q := by
  refine List.inj_on_of_nodup_map ix.distinct (mem_of_find? hp) hq ?_
  rw [key_eq_of_find? hp, hk]

/-! ### Parents -/

theorem Loops.exists_extends (h : ix.Loops c) : ∃ p, ix.Extends c p ∧ ix.Loops p := by
  obtain ⟨q, hcq, hqq⟩ := h
  rcases hcq.cases_head with rfl | ⟨p, hp, hpq⟩
  · -- the class itself is the one that is met twice
    obtain ⟨p, hp, hpc⟩ := TransGen.head'_iff.mp hqq
    exact ⟨p, hp, c, hpc, hqq⟩
  · exact ⟨p, hp, q, hpq, hqq⟩

/-- A walk along the parents notices when they come back, wherever it starts. -/
theorem loop_of_loops (h : ix.Loops c) : ∃ n, (ix.ancestryFrom visited c).loop = some n := by
  induction visited, c using ancestryFrom.induct ix with
  | case1 visited c hp =>
      obtain ⟨_, ⟨n, hn, _⟩, _⟩ := h.exists_extends
      rw [hp] at hn
      cases hn
  | case2 visited c n hp hv =>
      rw [ancestryFrom_loop hp hv]
      exact ⟨n, rfl⟩
  | case3 visited c n hp hv hf =>
      obtain ⟨_, ⟨m, hm, hfound⟩, _⟩ := h.exists_extends
      rw [hp] at hm
      cases hm
      rw [hf] at hfound
      cases hfound
  | case4 visited c n hp hv q hf ih =>
      obtain ⟨p, hcp, hloops⟩ := h.exists_extends
      rw [ancestryFrom_known hp hv hf]
      exact ih (hcp.unique ⟨n, hp, hf⟩ ▸ hloops)

theorem exists_mem_ancestors (hl : (ix.ancestryFrom visited c).loop = none)
    (h : TransGen ix.Extends c q) : ∃ n, (n, q) ∈ (ix.ancestryFrom visited c).ancestors := by
  induction visited, c using ancestryFrom.induct ix with
  | case1 visited c hp =>
      obtain ⟨_, ⟨n, hn, _⟩, _⟩ := TransGen.head'_iff.mp h
      rw [hp] at hn
      cases hn
  | case2 visited c n hp hv =>
      rw [ancestryFrom_loop hp hv] at hl
      cases hl
  | case3 visited c n hp hv hf =>
      obtain ⟨_, ⟨m, hm, hfound⟩, _⟩ := TransGen.head'_iff.mp h
      rw [hp] at hm
      cases hm
      rw [hf] at hfound
      cases hfound
  | case4 visited c n hp hv p hf ih =>
      rw [ancestryFrom_known hp hv hf] at hl ⊢
      obtain ⟨p', hcp, hpq⟩ := TransGen.head'_iff.mp h
      obtain rfl := hcp.unique ⟨n, hp, hf⟩
      rcases reflTransGen_iff_eq_or_transGen.mp hpq with rfl | hpq
      · exact ⟨n, List.mem_cons_self⟩
      · obtain ⟨m, hm⟩ := ih hl hpq
        exact ⟨m, List.mem_cons_of_mem _ hm⟩

/-! ### Interfaces -/

theorem exists_mem_interfacesFrom (visited : List Text) (hn : name ∈ queue)
    (hq : ix.find? name = some q) :
    ClassName.key name ∈ visited ∨ ∃ m ∈ ix.interfacesFrom visited queue, ix.find? m = some q := by
  induction visited, queue using interfacesFrom.induct ix with
  | case1 visited => cases hn
  | case2 visited n queue hv ih =>
      rw [interfacesFrom_visited hv]
      rcases List.mem_cons.mp hn with rfl | hn
      · exact .inl hv
      · exact ih hn
  | case3 visited n queue hv hf ih =>
      rw [interfacesFrom_unknown hf]
      rcases List.mem_cons.mp hn with rfl | hn
      · rw [hf] at hq
        cases hq
      · exact ih hn
  | case4 visited n queue hv c hf ih =>
      rw [interfacesFrom_known hv hf]
      rcases List.mem_cons.mp hn with rfl | hn
      · exact .inr ⟨name, List.mem_cons_self, hq⟩
      · rcases ih (List.mem_append_left _ hn) with hk | ⟨m, hm, hmq⟩
        · rcases List.mem_cons.mp hk with hk | hk
          · exact .inr ⟨n, List.mem_cons_self, (find?_congr hk.symm).trans hq⟩
          · exact .inl hk
        · exact .inr ⟨m, List.mem_cons_of_mem _ hm, hmq⟩

/-- What a visited class implements is visited, or it was before. -/
theorem exists_mem_interfacesFrom_of_implements (hn : name ∈ ix.interfacesFrom visited queue)
    (hp : ix.find? name = some p) (h : ix.Implements p q) :
    q.key ∈ visited ∨ ∃ m ∈ ix.interfacesFrom visited queue, ix.find? m = some q := by
  induction visited, queue using interfacesFrom.induct ix with
  | case1 visited => rw [interfacesFrom_nil] at hn; cases hn
  | case2 visited n queue hv ih => rw [interfacesFrom_visited hv] at hn ⊢; exact ih hn
  | case3 visited n queue hv hf ih => rw [interfacesFrom_unknown hf] at hn ⊢; exact ih hn
  | case4 visited n queue hv c hf ih =>
      rw [interfacesFrom_known hv hf] at hn ⊢
      have hrest : q.key ∈ ClassName.key n :: visited ∨
          ∃ m ∈ ix.interfacesFrom (ClassName.key n :: visited) (queue ++ c.interfaceNames),
            ix.find? m = some q := by
        rcases List.mem_cons.mp hn with rfl | hn
        · -- the interfaces of the class itself were put at the end of the queue
          obtain ⟨i, hi, hq⟩ := h
          rw [hp] at hf
          cases hf
          rw [key_eq_of_find? hq]
          exact exists_mem_interfacesFrom _ (List.mem_append_right _ hi) hq
        · exact ih hn
      rcases hrest with hk | ⟨m, hm, hmq⟩
      · rcases List.mem_cons.mp hk with hk | hk
        · obtain ⟨_, _, hq⟩ := h
          have hcq := eq_of_find?_of_key hf (mem_of_find? hq) hk
          exact .inr ⟨n, List.mem_cons_self, hcq ▸ hf⟩
        · exact .inl hk
      · exact .inr ⟨m, List.mem_cons_of_mem _ hm, hmq⟩

theorem exists_mem_interfaceOrder (hn : name ∈ ix.firstInterfaces c) (hp : ix.find? name = some p)
    (h : ReflTransGen ix.Implements p q) : ∃ m ∈ ix.interfaceOrder c, ix.find? m = some q := by
  induction h with
  | refl =>
      rcases exists_mem_interfacesFrom [] hn hp with hk | hm
      · cases hk
      · exact hm
  | tail _ hstep ih =>
      obtain ⟨m, hm, hmq⟩ := ih
      rcases exists_mem_interfacesFrom_of_implements hm hmq hstep with hk | hm
      · cases hk
      · exact hm

/-! ### The search order -/

theorem exists_mem_firstInterfaces (hl : (ix.ancestry c).loop = none) (ha : ReflTransGen ix.Extends c p)
    (h : ix.Implements p q) : ∃ n ∈ ix.firstInterfaces c, ix.find? n = some q := by
  obtain ⟨n, hn, hq⟩ := h
  refine ⟨n, ?_, hq⟩
  rw [firstInterfaces, List.mem_append]
  rcases reflTransGen_iff_eq_or_transGen.mp ha with rfl | ha
  · exact .inl hn
  · obtain ⟨m, hm⟩ := exists_mem_ancestors hl ha
    exact .inr (List.mem_flatMap.mpr ⟨(m, p), hm, hn⟩)

/-- **The search order leaves nothing out**: unless the parents come back, it has every ancestor of a class and
every interface that these lead to. -/
theorem exists_mem_searchOrder (hl : (ix.ancestry c).loop = none)
    (h : TransGen ix.Extends c q ∨ ix.InheritsInterface c q) :
    ∃ m ∈ ix.searchOrder c, ix.find? m = some q := by
  simp only [searchOrder_eq, List.mem_append]
  rcases h with h | ⟨a, ha, h⟩
  · obtain ⟨n, hn⟩ := exists_mem_ancestors hl h
    exact ⟨n, .inl (List.mem_map_of_mem hn), find?_of_mem_ancestors hn⟩
  · obtain ⟨i, hai, hiq⟩ := TransGen.head'_iff.mp h
    obtain ⟨n, hn, hi⟩ := exists_mem_firstInterfaces hl ha hai
    obtain ⟨m, hm, hq⟩ := exists_mem_interfaceOrder hn hi hiq
    exact ⟨m, .inr hm, hq⟩

end ClassIndex

end ApiPages
