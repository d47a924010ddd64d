import Mathlib.Data.List.Flatten
import Mathlib.Order.Nat
import ApiPages.Proofs.Session

/-! # Searching for a donor

A session searches with two walks along the parents and with a queue of interfaces, and learns from each answer
whom to ask next.  `Codebase.Answers` says what it may rely on when it asks: a known class is answered from
what is then remembered.  Under this assumption each search asks the classes of an order that the index alone
determines (`run_searchParents`, `run_collectInterfaces`, `run_searchInterfaces`), and together they are
`findDonor` (`run_findDonorM`).  All limits that are long enough give the same search: a step along the parents
leaves fewer keys unvisited, and a step of the queue leaves fewer names to be taken (`ClassIndex.pending`). -/

namespace ApiPages

open SessionM

/-! ### Asking in turn -/

section Ask

variable {m : Type → Type} [Monad m] [MonadExceptOf DocError m]

/-- Asks the ancestors in turn for a method.  A chain of parents that comes back fails at its end. -/
def askParents (ask : Text → m (Option ClassDoc)) (method : Text) (a : Ancestry) :
    m (Option MethodDoc) := do
  match ← firstDonor ask method a.names with
  | some found => pure (some found)
  | none =>
    match a.loop with
    | some name => throw (.cycle name)
    | none => pure none

/-- Asks for each class in turn, whatever the answers. -/
def askEach (ask : Text → m (Option ClassDoc)) : List Text → m Unit
  | [] => pure ()
  | name :: names => do
    let _ ← ask name
    askEach ask names

theorem askParents_cons [LawfulMonad m] (ask : Text → m (Option ClassDoc)) (method name : Text)
    (p : ClassDecl) (a : Ancestry) :
    askParents ask method (.cons name p a) = (do
      let doc ← ask name
      match doc.bind (·.method? method) with
      | some found => pure (some found)
      | none => askParents ask method a) := by
  unfold askParents
  simp only [Ancestry.cons, Ancestry.names, List.map_cons, firstDonor, bind_assoc]
  congr 1
  funext doc
  cases doc.bind (·.method? method) with
  | some found => simp only [pure_bind]
  | none => rfl

end Ask

/-! ### How long a search is -/

theorem ClassName.length_fresh_le (seen names : List Text) :
    (fresh seen names).length ≤ names.length := by
  induction names generalizing seen with
  | nil => exact le_rfl
  | cons name names ih =>
      unfold fresh
      split
      · exact (ih seen).trans (Nat.le_succ _)
      · exact Nat.succ_le_succ (ih _)

namespace ClassIndex

variable {ix : ClassIndex} {name : Text}

theorem length_unvisited_le (ix : ClassIndex) (visited : List Text) :
    (ix.unvisited visited).length ≤ ix.size := by
  have h := List.length_filter_le (fun k => !visited.contains k) ix.keys
  rwa [keys, List.length_map] at h

theorem length_unvisited_cons_le {visited : List Text} {k : Text} {depth : Nat} (hk : k ∈ ix.keys)
    (hv : k ∉ visited) (h : (ix.unvisited visited).length ≤ depth + 1) :
    (ix.unvisited (k :: visited)).length ≤ depth :=
  Nat.le_of_lt_succ ((length_unvisited_cons_lt hk hv).trans_le h)

theorem references_cons_unknown (taken : List Text) (hn : ClassName.key name ∉ ix.keys) :
    ix.references (ClassName.key name :: taken) = ix.references taken := by
  unfold references
  congr 2
  apply List.filter_congr
  intro c hc
  have hne : c.key ≠ ClassName.key name := fun h => hn (h ▸ List.mem_map_of_mem hc)
  simp [hne]

theorem references_cons_known {taken : List Text} {p : ClassDecl} (hp : ix.find? name = some p)
    (hv : ClassName.key name ∉ taken) :
    ix.references (ClassName.key name :: taken) + p.interfaces.length ≤ ix.references taken := by
  have hkey := key_eq_of_find? hp
  obtain ⟨before, after, hsplit⟩ := List.append_of_mem (mem_of_find? hp)
  have hmono : ∀ cs : List ClassDecl,
      ((cs.filter fun c => !(ClassName.key name :: taken).contains c.key).flatMap
        ClassDecl.interfaces).length ≤
      ((cs.filter fun c => !taken.contains c.key).flatMap ClassDecl.interfaces).length := by
    intro cs
    refine ((List.monotone_filter_right cs ?_).flatMap _).length_le
    simp
  have hb := hmono before
  have ha := hmono after
  unfold references
  rw [hsplit, List.filter_append, List.filter_append, List.filter_cons_of_neg (by simp [hkey]),
    List.filter_cons_of_pos (by simp [hkey, hv])]
  simp only [List.flatMap_append, List.flatMap_cons, List.length_append]
  omega

variable {q : Queue} {rest : List Text}

theorem pending_next_unknown (hw : q.waiting = name :: rest) (hn : ClassName.key name ∉ ix.keys) :
    ix.pending ⟨ClassName.key name :: q.taken, rest, Queue.nodup_of_waiting hw⟩ < ix.pending q := by
  simp only [pending, references_cons_unknown q.taken hn, hw, List.length_cons]
  omega

/-- A known class adds its interfaces to the queue, which were counted before. -/
theorem pending_next_known {p : ClassDecl} (hw : q.waiting = name :: rest)
    (hv : ClassName.key name ∉ q.taken) (hp : ix.find? name = some p) :
    ix.pending (Queue.add ⟨ClassName.key name :: q.taken, rest, Queue.nodup_of_waiting hw⟩
      p.interfaceNames) < ix.pending q := by
  have hr := references_cons_known hp hv
  have hf := ClassName.length_fresh_le
    (Queue.seen ⟨ClassName.key name :: q.taken, rest, Queue.nodup_of_waiting hw⟩) p.interfaceNames
  have hi : p.interfaceNames.length = p.interfaces.length := List.length_map _
  simp only [pending, Queue.add, List.length_append, hw, List.length_cons]
  omega

end ClassIndex

/-! ### Steps that use memory -/

/-- Computations that read a memory. -/
abbrev MemoryM := ReaderT Cache (Except DocError)

namespace Codebase

variable {cb : Codebase}

/-- Answers from the memory. -/
def rememberedM (cb : Codebase) (name : Text) : MemoryM (Option ClassDoc) :=
  fun cache => cb.remembered cache name

/-- A computation that reads a memory, as one with that memory. -/
def atMemory (cache : Cache) : Simulation MemoryM (Except DocError) where
  rel x y := x cache = y
  rel_pure _ := rfl
  rel_throw _ := rfl
  rel_bind {_ _ x y f g} hxy hfg := by
    change (x cache >>= fun a => f a cache) = y >>= g
    rw [hxy]
    congr 1
    funext a
    exact hfg a

theorem atMemory_rememberedM (cb : Codebase) (cache : Cache) (name : Text) :
    (atMemory cache).rel (cb.rememberedM name) (cb.remembered cache name) :=
  rfl

/-- From the state `s` the step `y` ends in a valid state, and if it succeeds then `x` gives the same result
with all that is remembered at its end. -/
def Performs (cb : Codebase) {α : Type} (s : Session) (x : MemoryM α) (y : SessionM α) : Prop :=
  ∃ r s', y.Returns s r s' ∧ s'.Valid cb ∧ cb.Advance s s' ∧
    ∀ cache, s'.cache <+: cache → ∀ a, r = .ok a → x cache = .ok a

/-- Steps on a chain, and the same from memory. -/
def onChain (cb : Codebase) (chain : List Text) : Simulation MemoryM SessionM where
  rel x y := ∀ s, s.Valid cb → s.chain = chain → cb.Performs s x y
  rel_pure a s hs _ := ⟨.ok a, s, returns_pure a s, hs, .refl s, fun _ _ _ h => h⟩
  rel_throw e s hs _ := ⟨.error e, s, returns_throw e s, hs, .refl s, fun _ _ _ h => by cases h⟩
  rel_bind {_ _ x y f g} hxy hfg s hs hc := by
    obtain ⟨r, s₁, hy, hs₁, ha₁, hx⟩ := hxy s hs hc
    cases r with
    | error e => exact ⟨.error e, s₁, hy.run_bind_error, hs₁, ha₁, fun _ _ _ h => by cases h⟩
    | ok a =>
        obtain ⟨r, s₂, hg, hs₂, ha₂, hf⟩ := hfg a s₁ hs₁ (ha₁.chain.trans hc)
        refine ⟨r, s₂, hy.run_bind_ok.trans hg, hs₂, ha₁.trans ha₂, ?_⟩
        intro cache hp b hb
        have hxa := hx cache (ha₂.cache.trans hp) a rfl
        change (x cache >>= fun a => f a cache) = .ok b
        rw [hxa]
        exact hf cache hp b hb

/-- How the classes asked for are answered on a chain. -/
structure Answers (cb : Codebase) (chain : List Text) (ask : Text → SessionM (Option ClassDoc)) :
    Prop where
  /-- Every question returns, and a class that is given is remembered then. -/
  performs : ∀ name, (cb.onChain chain).rel (cb.rememberedM name) (ask name)
  unknown : ∀ {s : Session} {name : Text}, s.Valid cb → cb.index.find? name = none →
    Returns (ask name) s (.ok none) s
  remembered : ∀ {s : Session} {name : Text} {doc : ClassDoc},
    s.cache.find? (ClassName.key name) = some doc → Returns (ask name) s (.ok (some doc)) s

section Walks

variable {chain : List Text} {ask : Text → SessionM (Option ClassDoc)} {s : Session}

theorem Answers.known (hl : cb.Answers chain ask) (hs : s.Valid cb) (hc : s.chain = chain)
    {name : Text} {p : ClassDecl} (hp : cb.index.find? name = some p) :
    ∃ r s', Returns (ask name) s r s' ∧ s'.Valid cb ∧ cb.Advance s s' ∧
      ∀ doc?, r = .ok doc? → ∃ doc, doc? = some doc ∧
        s'.cache.find? (ClassName.key name) = some doc ∧
        doc.parent = p.parentName? ∧ doc.interfaces = p.interfaceNames := by
  obtain ⟨r, s', hr, hs', ha, hx⟩ := hl.performs name s hs hc
  refine ⟨r, s', hr, hs', ha, ?_⟩
  intro doc? hd
  obtain ⟨doc, rfl, hf⟩ := find?_of_remembered hp (hx s'.cache (List.prefix_refl _) doc? hd)
  exact ⟨doc, rfl, hf, hs'.cache.header hp hf⟩

theorem run_searchParents (hl : cb.Answers chain ask) (method : Text) {steps : Nat} (trail : Trail)
    (c : ClassDecl) (hn : (cb.index.unvisited trail.keys).length < steps) (hs : s.Valid cb)
    (hc : s.chain = chain) :
    (searchParents ask method steps trail c.parentName?).run.run s =
      (askParents ask method (cb.index.ancestryFrom trail.keys c)).run.run s := by
  induction steps generalizing trail c s with
  | zero => cases hn
  | succ steps ih =>
      cases hp : c.parentName? with
      | none =>
          rw [searchParents, ClassIndex.ancestryFrom_root hp]
          rfl
      | some name =>
          by_cases hv : ClassName.key name ∈ trail.keys
          · rw [searchParents, dif_pos hv, ClassIndex.ancestryFrom_loop hp hv]
            rfl
          rw [searchParents, dif_neg hv]
          cases hf : cb.index.find? name with
          | none =>
              rw [(hl.unknown hs hf).run_bind_ok, ClassIndex.ancestryFrom_unknown hp hv hf]
              rfl
          | some p =>
              have hfewer := ClassIndex.length_unvisited_cons_lt (ClassIndex.key_mem_keys_of_find? hf) hv
              rw [ClassIndex.ancestryFrom_known hp hv hf, askParents_cons]
              obtain ⟨r, s', hr, hs', ha, hdoc⟩ := hl.known hs hc hf
              cases r with
              | error e => rw [hr.run_bind_error, hr.run_bind_error]
              | ok doc? =>
                  obtain ⟨doc, rfl, _, hpar, _⟩ := hdoc doc? rfl
                  rw [hr.run_bind_ok, hr.run_bind_ok]
                  simp only [Option.bind_some]
                  cases doc.method? method with
                  | some found => rfl
                  | none =>
                      simp only [hpar]
                      exact ih _ p (hfewer.trans_le (Nat.le_of_lt_succ hn)) hs' (ha.chain.trans hc)

/-- The second extends walk asks the same ancestors, and adds their interfaces. -/
theorem run_collectInterfaces (hl : cb.Answers chain ask) {steps : Nat} (trail : Trail)
    (c : ClassDecl) (queue : Queue) (hn : (cb.index.unvisited trail.keys).length < steps)
    (hs : s.Valid cb) (hc : s.chain = chain) :
    (collectInterfaces ask steps trail c.parentName? queue).run.run s =
      (do
        askEach ask (cb.index.ancestryFrom trail.keys c).names
        pure (queue.add
          ((cb.index.ancestryFrom trail.keys c).ancestors.flatMap fun a => a.2.interfaceNames)) :
        SessionM Queue).run.run s := by
  induction steps generalizing trail c queue s with
  | zero => cases hn
  | succ steps ih =>
      cases hp : c.parentName? with
      | none =>
          rw [collectInterfaces, ClassIndex.ancestryFrom_root hp]
          simp [Ancestry.names, askEach, Queue.add_nil]
      | some name =>
          by_cases hv : ClassName.key name ∈ trail.keys
          · rw [collectInterfaces, dif_pos hv, ClassIndex.ancestryFrom_loop hp hv]
            simp [Ancestry.names, askEach, Queue.add_nil]
          rw [collectInterfaces, dif_neg hv]
          cases hf : cb.index.find? name with
          | none =>
              rw [(hl.unknown hs hf).run_bind_ok, ClassIndex.ancestryFrom_unknown hp hv hf]
              simp [Ancestry.names, askEach, Queue.add_nil]
          | some p =>
              have hfewer := ClassIndex.length_unvisited_cons_lt (ClassIndex.key_mem_keys_of_find? hf) hv
              simp only [ClassIndex.ancestryFrom_known hp hv hf, Ancestry.cons, Ancestry.names,
                List.map_cons, askEach, bind_assoc, List.flatMap_cons]
              obtain ⟨r, s', hr, hs', ha, hdoc⟩ := hl.known hs hc hf
              cases r with
              | error e => rw [hr.run_bind_error, hr.run_bind_error]
              | ok doc? =>
                  obtain ⟨doc, rfl, _, hpar, hint⟩ := hdoc doc? rfl
                  rw [hr.run_bind_ok, hr.run_bind_ok, Queue.add_append]
                  simp only [hpar, hint]
                  exact ih _ p _ (hfewer.trans_le (Nat.le_of_lt_succ hn)) hs' (ha.chain.trans hc)

/-- The search with a queue asks the interfaces in turn, in breadth-first order. -/
theorem run_searchInterfaces (hl : cb.Answers chain ask) (method : Text) {steps : Nat} (q : Queue)
    (hn : cb.index.pending q < steps) (hs : s.Valid cb) (hc : s.chain = chain) :
    (searchInterfaces ask method steps q).run.run s =
      (firstDonor ask method (cb.index.interfacesFrom q.taken q.waiting)).run.run s := by
  induction steps generalizing q s with
  | zero => cases hn
  | succ steps ih =>
      cases hw : q.waiting with
      | nil =>
          rw [searchInterfaces, Queue.next?_eq_none hw, ClassIndex.interfacesFrom_nil]
          rfl
      | cons name rest =>
          have hv : ClassName.key name ∉ q.taken := by
            have hd := Queue.nodup_of_waiting hw
            rw [List.cons_append, List.nodup_cons, List.mem_append] at hd
            exact fun h => hd.1 (.inl h)
          rw [searchInterfaces, Queue.next?_eq_some hw]
          cases hp : cb.index.find? name with
          | none =>
              have hi := ClassIndex.find?_eq_none_iff.mp hp
              have hfewer := ClassIndex.pending_next_unknown hw hi
              have hk : ∀ k ∈ cb.index.keys, k ∈ ClassName.key name :: q.taken ↔ k ∈ q.taken := by
                intro k hk
                rw [List.mem_cons, or_iff_right]
                exact fun he => hi (he ▸ hk)
              simp only
              rw [(hl.unknown hs hp).run_bind_ok, ClassIndex.interfacesFrom_unknown hp,
                ← ClassIndex.interfacesFrom_congr hk]
              exact ih _ (by omega) hs hc
          | some p =>
              have hfewer := ClassIndex.pending_next_known hw hv hp
              rw [ClassIndex.interfacesFrom_known hv hp, firstDonor]
              simp only
              obtain ⟨r, s', hr, hs', ha, hd⟩ := hl.known hs hc hp
              cases r with
              | error e => rw [hr.run_bind_error, hr.run_bind_error]
              | ok doc? =>
                  obtain ⟨doc, rfl, _, _, hint⟩ := hd doc? rfl
                  rw [hr.run_bind_ok, hr.run_bind_ok]
                  simp only [Option.bind_some]
                  cases doc.method? method with
                  | some found => rfl
                  | none =>
                      simp only [hint]
                      rw [ih _ (by omega) hs' (ha.chain.trans hc), ClassIndex.interfacesFrom_add]

theorem askEach_remembered (hl : cb.Answers chain ask) {names : List Text}
    (h : ∀ name ∈ names, ∃ doc, s.cache.find? (ClassName.key name) = some doc) :
    Returns (askEach ask names) s (.ok ()) s := by
  induction names with
  | nil => exact returns_pure () s
  | cons name names ih =>
      obtain ⟨⟨doc, hd⟩, hn⟩ := List.forall_mem_cons.mp h
      unfold Returns askEach
      rw [(hl.remembered hd).run_bind_ok]
      exact ih hn

theorem remembered_of_firstDonor {method : Text} {c : ClassDecl} {cache : Cache}
    (h : firstDonor cb.rememberedM method (cb.index.ancestry c).names cache = .ok none) :
    ∀ name ∈ (cb.index.ancestry c).names, ∃ doc,
      cache.find? (ClassName.key name) = some doc := by
  rw [(atMemory cache).rel_firstDonor (atMemory_rememberedM cb cache) method _, firstDonor_eq_none_iff] at h
  intro name hn
  obtain ⟨⟨n, p⟩, hp, rfl⟩ := List.mem_map.mp hn
  obtain ⟨doc?, hr, _⟩ := h n hn
  obtain ⟨doc, _, hd⟩ := find?_of_remembered (ClassIndex.find?_of_mem_ancestors hp) hr
  exact ⟨doc, hd⟩

/-- Once the ancestors are remembered, the second extends walk returns the interfaces to start from. -/
theorem collectInterfaces_remembered (hl : cb.Answers chain ask) {steps : Nat} {c : ClassDecl}
    (hn : cb.index.size < steps) (hs : s.Valid cb) (hc : s.chain = chain)
    (h : ∀ name ∈ (cb.index.ancestry c).names, ∃ doc,
      s.cache.find? (ClassName.key name) = some doc) :
    Returns (collectInterfaces ask steps (.start c.key) c.parentName?
      (Queue.empty.add c.interfaceNames)) s (.ok (Queue.empty.add (cb.index.firstInterfaces c))) s := by
  have hrem : Returns (askEach ask (cb.index.ancestryFrom (Trail.start c.key).keys c).names) s
      (.ok ()) s := askEach_remembered hl h
  have hsteps := (cb.index.length_unvisited_le (Trail.start c.key).keys).trans_lt hn
  unfold Returns
  rw [run_collectInterfaces hl _ c _ hsteps hs hc, hrem.run_bind_ok, ClassIndex.firstInterfaces,
    Queue.add_append]
  rfl

/-- **The search as the session makes it asks the classes of the two orders in turn.** -/
theorem run_findDonorM (hl : cb.Answers chain ask) (c : ClassDecl) (method : Text) (hs : s.Valid cb)
    (hc : s.chain = chain) :
    (cb.findDonorM ask c method).run.run s = (findDonor cb.index ask c method).run.run s := by
  have hwalk : (searchParents ask method (cb.index.size + 1) (.start c.key) c.parentName?).run.run s =
      (askParents ask method (cb.index.ancestry c)).run.run s :=
    run_searchParents hl method _ c (Nat.lt_succ_of_le (cb.index.length_unvisited_le _)) hs hc
  obtain ⟨r, s₁, hr, hs₁, ha₁, hx⟩ :=
    (cb.onChain chain).rel_firstDonor hl.performs method (cb.index.ancestry c).names s hs hc
  rw [findDonorM, run_bind_congr hwalk, askParents, findDonor, bind_assoc]
  cases r with
  | error e => rw [hr.run_bind_error, hr.run_bind_error]
  | ok found =>
      rw [hr.run_bind_ok, hr.run_bind_ok]
      cases found with
      | some found => rfl
      | none =>
          simp only
          cases (cb.index.ancestry c).loop with
          | some name => rfl
          | none =>
              simp only [pure_bind]
              have hc₁ := ha₁.chain.trans hc
              have hrem := remembered_of_firstDonor (hx s₁.cache (List.prefix_refl _) none rfl)
              rw [(collectInterfaces_remembered hl (Nat.lt_succ_self _) hs₁ hc₁ hrem).run_bind_ok,
                run_searchInterfaces hl method _ (Nat.lt_succ_self _) hs₁ hc₁,
                ClassIndex.interfacesFrom_add]
              rfl

end Walks

end Codebase

end ApiPages
