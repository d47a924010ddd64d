import ApiPages.Proofs.Search

/-! # Every request returns

A class that has to be documented for another one puts a new key of the index on the chain, so questions are
nested no deeper than the index has classes not yet on the chain.  With a limit at least that large every
question is answered (`Codebase.answers`), and all these limits give the same answer (`run_resolveM_eq`).

`Codebase.Reached` holds in the states that a session comes to, between its requests and inside of them.  The
main result collects what holds in all of them. -/

namespace ApiPages

open SessionM

namespace Codebase

variable {cb : Codebase} {chain : List Text} {ask : Text → SessionM (Option ClassDoc)} {s s' : Session}

/-! ### Classes as the session documents them -/

/-- Two steps that do the same in the valid states of a chain, and end in such a state. -/
def alike (cb : Codebase) (chain : List Text) : Simulation SessionM SessionM where
  rel x y := ∀ s, s.Valid cb → s.chain = chain →
    ∃ r s', Returns x s r s' ∧ Returns y s r s' ∧ s'.Valid cb ∧ s'.chain = chain
  rel_pure a s hs hc := ⟨.ok a, s, returns_pure a s, returns_pure a s, hs, hc⟩
  rel_throw e s hs hc := ⟨.error e, s, returns_throw e s, returns_throw e s, hs, hc⟩
  rel_bind {_ _ x y f g} hxy hfg s hs hc := by
    obtain ⟨r, s₁, hx, hy, hs₁, hc₁⟩ := hxy s hs hc
    cases r with
    | error e => exact ⟨.error e, s₁, hx.run_bind_error, hy.run_bind_error, hs₁, hc₁⟩
    | ok a =>
        obtain ⟨r, s₂, hf, hg, hs₂, hc₂⟩ := hfg a s₁ hs₁ hc₁
        exact ⟨r, s₂, hx.run_bind_ok.trans hf, hy.run_bind_ok.trans hg, hs₂, hc₂⟩

theorem run_buildMethodM (hl : cb.Answers chain ask) (c : ClassDecl) (d : MethodDecl) (hs : s.Valid cb)
    (hc : s.chain = chain) :
    (cb.buildMethodM ask c d).run.run s = (buildMethod cb ask c d).run.run s := by
  rw [buildMethodM, buildMethod]
  cases d.inheritsDoc c with
  | false => rfl
  | true => exact run_bind_congr (run_findDonorM hl c d.name hs hc) _

/-- **A session documents a class as `buildClass` does.** -/
theorem run_buildClassM (hl : cb.Answers chain ask) (keep : MethodDecl → Bool) (c : ClassDecl)
    (hs : s.Valid cb) (hc : s.chain = chain) :
    (cb.buildClassM ask keep c).run.run s = (buildClass cb ask keep c).run.run s := by
  have hmethods : ∀ d, (cb.alike chain).rel (cb.buildMethodM ask c d) (buildMethod cb ask c d) := by
    intro d s hs hc
    obtain ⟨r, s', hr, hs', ha, _⟩ := (cb.onChain chain).rel_buildMethod hl.performs cb c d s hs hc
    exact ⟨r, s', (run_buildMethodM hl c d hs hc).trans hr, hr, hs', ha.chain.trans hc⟩
  obtain ⟨r, s', hx, hy, _⟩ := (cb.alike chain).rel_mapM hmethods (members keep c) s hs hc
  rw [buildClassM, buildClass, run_bind, run_bind, hx, hy]

/-- A class is documented from what is remembered then. -/
theorem Answers.performs_buildClassM (hl : cb.Answers chain ask) (keep : MethodDecl → Bool)
    (c : ClassDecl) :
    (cb.onChain chain).rel (buildClass cb cb.rememberedM keep c) (cb.buildClassM ask keep c) := by
  intro s hs hc
  obtain ⟨r, s', hr, hrest⟩ := (cb.onChain chain).rel_buildClass hl.performs cb keep c s hs hc
  exact ⟨r, s', (run_buildClassM hl keep c hs hc).trans hr, hrest⟩

/-! ### Every class is answered -/

variable {build build' : ClassDecl → SessionM ClassDoc} {name : Text}

/-- On a chain every class is answered if each can be built where it is on the chain as well. -/
theorem Answers.recallOr
    (h : ∀ k, k ∉ chain → k ∈ cb.index.keys → ∀ c,
      (cb.onChain (k :: chain)).rel (buildClass cb cb.rememberedM keepAll c) (build c)) :
    cb.Answers chain (cb.recallOr build) := by
  refine ⟨?_, recallOr_unknown, recallOr_remembered⟩
  intro name s hs hc
  subst hc
  cases hd : s.cache.find? (ClassName.key name) with
  | some doc =>
      obtain ⟨c, _, hf, _⟩ := hs.cache.source hd
      refine ⟨_, s, recallOr_remembered hd, hs, .refl s, ?_⟩
      rintro cache hp _ ⟨⟩
      exact remembered_known hf (Cache.find?_of_prefix hp hd)
  | none =>
      by_cases hk : ClassName.key name ∈ s.chain
      · exact ⟨_, s, recallOr_cycle hd hk, hs, .refl s, fun _ _ _ h => by cases h⟩
      cases hf : cb.index.find? name with
      | none =>
          refine ⟨_, s, recallOr_unknown hs hf, hs, .refl s, ?_⟩
          rintro cache _ _ ⟨⟩
          exact remembered_unknown hf
      | some c =>
          have hi := ClassIndex.key_mem_keys_of_find? hf
          obtain ⟨r, t, hr, ht, ha, hx⟩ := h _ hk hi c _ (hs.enter hk hi) rfl
          cases r with
          | error e =>
              exact ⟨_, t.leave, recallOr_failed hd hk hf hr, ht.leave, ha.leave hk hi,
                fun _ _ _ h => by cases h⟩
          | ok doc =>
              -- while the class was on the chain it was not remembered
              have hn : t.cache.find? (ClassName.key name) = none :=
                (ha.held _ List.mem_cons_self).trans hd
              have hb := hx t.cache (List.prefix_refl _) doc rfl
              rw [(atMemory t.cache).rel_buildClass (atMemory_rememberedM cb t.cache) cb keepAll c] at hb
              have hadd : (t.leave.remember (ClassName.key name) doc).cache =
                  t.cache ++ [(ClassName.key name, doc)] := Cache.add_of_find?_eq_none hn
              refine ⟨_, _, recallOr_built hd hk hf hr, ⟨?_, ht.leave.chain, ht.leave.nodup⟩,
                (ha.leave hk hi).remember hn hk doc, ?_⟩
              · rw [hadd]
                exact ht.cache.add hf hn hb
              · rintro cache hp _ ⟨⟩
                rw [hadd] at hp
                exact remembered_known hf (Cache.find?_of_prefix hp (Cache.find?_append_self hn))

/-- **Each class that is asked for is answered**, if there is room for all classes that are not yet on the
chain. -/
theorem answers (cb : Codebase) {depth : Nat} {chain : List Text}
    (hd : (cb.index.unvisited chain).length ≤ depth) : cb.Answers chain (cb.resolveM depth) := by
  induction depth generalizing chain with
  | zero =>
      -- all classes are on the chain, so none is built
      refine Answers.recallOr fun k hk hi => ?_
      exact absurd (ClassIndex.length_unvisited_cons_lt hi hk) (by omega)
  | succ depth ih =>
      refine Answers.recallOr fun k hk hi => ?_
      exact (ih (ClassIndex.length_unvisited_cons_le hi hk hd)).performs_buildClassM keepAll

/-! ### The limit does not show -/

theorem run_recallOr_congr
    (h : ∀ c, ClassName.key name ∉ s.chain → cb.index.find? name = some c →
      (build c).run.run (s.enter (ClassName.key name)) =
        (build' c).run.run (s.enter (ClassName.key name))) :
    (cb.recallOr build name).run.run s = (cb.recallOr build' name).run.run s := by
  rw [run_recallOr, run_recallOr]
  cases s.cache.find? (ClassName.key name) with
  | some doc => rfl
  | none =>
      by_cases hk : ClassName.key name ∈ s.chain
      · simp only [if_pos hk]
      · simp only [if_neg hk]
        cases hf : cb.index.find? name with
        | none => rfl
        | some c => simp only [run_within, h c hk hf]

theorem run_resolveM_succ {depth : Nat} (hd : (cb.index.unvisited s.chain).length ≤ depth)
    (hs : s.Valid cb) :
    (cb.resolveM (depth + 1) name).run.run s = (cb.resolveM depth name).run.run s := by
  induction depth generalizing s name with
  | zero =>
      refine run_recallOr_congr fun c hk hf => ?_
      have hfewer := ClassIndex.length_unvisited_cons_lt (ClassIndex.key_mem_keys_of_find? hf) hk
      omega
  | succ depth ih =>
      refine run_recallOr_congr fun c hk hf => ?_
      have hi := ClassIndex.key_mem_keys_of_find? hf
      have hroom : (cb.index.unvisited (s.enter (ClassName.key name)).chain).length ≤ depth :=
        ClassIndex.length_unvisited_cons_le hi hk hd
      have hse := hs.enter hk hi
      have hl := answers cb hroom
      rw [run_buildClassM (answers cb (Nat.le_succ_of_le hroom)) keepAll c hse rfl,
        run_buildClassM hl keepAll c hse rfl]
      have hask : ∀ n, (cb.alike (s.enter (ClassName.key name)).chain).rel
          (cb.resolveM (depth + 1) n) (cb.resolveM depth n) := by
        intro n t ht hc
        obtain ⟨r, t', hr, ht', ha, _⟩ := hl.performs n t ht hc
        exact ⟨r, t', (ih (hc ▸ hroom) ht).trans hr, hr, ht', ha.chain.trans hc⟩
      obtain ⟨r, t, hx, hy, _⟩ := (cb.alike _).rel_buildClass hask cb keepAll c _ hse rfl
      exact hx.trans hy.symm

/-- All limits with room for the classes that are not yet on the chain give the same answer. -/
theorem run_resolveM_eq {depth : Nat} (hd : (cb.index.unvisited s.chain).length ≤ depth)
    (hs : s.Valid cb) :
    (cb.resolveM depth name).run.run s =
      (cb.resolveM (cb.index.unvisited s.chain).length name).run.run s := by
  induction depth, hd using Nat.le_induction with
  | base => rfl
  | succ depth hd ih => rw [run_resolveM_succ hd hs, ih]

/-! ### Requests -/

variable {keep : MethodDecl → Bool} {c : ClassDecl}

theorem documentM_unknown (hf : cb.index.find? name = none) :
    Returns (cb.documentM keep name) s (.error (.unknownClass (ClassName.display name))) s := by
  unfold documentM
  rw [hf]
  exact returns_throw _ s

theorem documentM_known {r : Except DocError ClassDoc} (hf : cb.index.find? name = some c)
    (h : Returns (cb.buildClassM (cb.resolveM cb.index.size) keep c) (s.enter c.key) r s') :
    Returns (cb.documentM keep name) s r s'.leave := by
  unfold documentM
  rw [hf]
  exact returns_within h

/-- A request returns, and a class that it documents is documented from what is remembered at its end. -/
theorem performs_documentM (keep : MethodDecl → Bool) (name : Text) (hs : s.Valid cb)
    (hc : s.chain = []) :
    ∃ r s', Returns (cb.documentM keep name) s r s' ∧ s'.Valid cb ∧ cb.Advance s s' ∧
      ∀ doc, r = .ok doc → ∃ c, cb.index.find? name = some c ∧
        buildClass cb (cb.remembered s'.cache) keep c = .ok doc := by
  cases hf : cb.index.find? name with
  | none => exact ⟨_, s, documentM_unknown hf, hs, .refl s, fun _ h => by cases h⟩
  | some c =>
      have hk : c.key ∉ s.chain := by
        rw [hc]
        exact List.not_mem_nil
      have hi : c.key ∈ cb.index.keys := List.mem_map_of_mem (ClassIndex.mem_of_find? hf)
      have hl := answers cb (cb.index.length_unvisited_le (s.enter c.key).chain)
      obtain ⟨r, t, hr, ht, ha, hx⟩ := hl.performs_buildClassM keep c _ (hs.enter hk hi) rfl
      refine ⟨r, t.leave, documentM_known hf hr, ht.leave, ha.leave hk hi, ?_⟩
      intro doc hd
      have hb := hx t.cache (List.prefix_refl _) doc hd
      rw [(atMemory t.cache).rel_buildClass (atMemory_rememberedM cb t.cache) cb keep c] at hb
      exact ⟨c, rfl, hb⟩

/-- The states met in a session.  Between two requests it keeps what it remembers.  During a request it asks
for classes, and begins those that it neither remembers nor is documenting. -/
inductive Reached (cb : Codebase) : Session → Prop
  | start : Reached cb {}
  | document {cache : Cache} {keep : MethodDecl → Bool} {name : Text}
      {r : Except DocError ClassDoc} {s' : Session} :
      Reached cb { cache } → Returns (cb.documentM keep name) { cache } r s' →
      Reached cb { cache := s'.cache }
  | request {cache : Cache} {name : Text} {c : ClassDecl} :
      Reached cb { cache } → cb.index.find? name = some c →
      Reached cb (({ cache } : Session).enter c.key)
  | resolve {s s' : Session} {depth : Nat} {name : Text} {r : Except DocError (Option ClassDoc)} :
      Reached cb s → (cb.index.unvisited s.chain).length ≤ depth →
      Returns (cb.resolveM depth name) s r s' → Reached cb s'
  | nested {s : Session} {name : Text} {c : ClassDecl} :
      Reached cb s → s.cache.find? (ClassName.key name) = none → ClassName.key name ∉ s.chain →
      cb.index.find? name = some c → Reached cb (s.enter (ClassName.key name))

theorem Reached.valid (h : cb.Reached s) : s.Valid cb := by
  induction h with
  | start => exact Session.valid_start cb
  | @document cache keep name r s' _ hr ih =>
      obtain ⟨r', t, hr', ht, _⟩ := performs_documentM keep name ih rfl
      obtain ⟨_, rfl⟩ := hr.unique hr'
      exact ht.between
  | request _ hf ih =>
      exact ih.enter List.not_mem_nil (List.mem_map_of_mem (ClassIndex.mem_of_find? hf))
  | @resolve s s' depth name r _ hd hr ih =>
      obtain ⟨r', t, hr', ht, _⟩ := (answers cb hd).performs name s ih rfl
      obtain ⟨_, rfl⟩ := hr.unique hr'
      exact ht
  | nested _ _ hk hf ih => exact ih.enter hk (ClassIndex.key_mem_keys_of_find? hf)

/-! ### Termination -/

/-- Distinct keys of the index, so no more than it has classes. -/
def IsChain (cb : Codebase) (chain : List Text) : Prop :=
  chain.Nodup ∧ (∀ k ∈ chain, k ∈ cb.index.keys) ∧ chain.length ≤ cb.index.size

theorem Advance.begun_isChain (hs : s.Valid cb) (ha : cb.Advance s s') :
    ∃ new, s'.begun = new ++ s.begun ∧ cb.Nested s.chain new ∧ ∀ chain ∈ new, cb.IsChain chain := by
  obtain ⟨new, hb, hn⟩ := ha.begun
  refine ⟨new, hb, hn, ?_⟩
  intro chain hchain
  obtain ⟨hd, hk⟩ := hn.distinct hs.nodup hs.chain chain hchain
  exact ⟨hd, hk, length_chain_le hd hk⟩

/-- **Every request returns**, and in every state of a session the following holds.  The classes that are
being documented are distinct classes of the index.  A class that is asked for is answered, or the question
fails, and any limit gives the same answer if it has room for the classes that are not yet being documented;
either way the chain is left as it was found, and the classes begun meanwhile are each on a chain of distinct
classes with one more key than the chain on which they were asked for.  The two extends walks ask for the
ancestors in turn and the queue for the interfaces in turn, each key at most once, whatever limit they have if
it is long enough. -/
theorem Reached.requests_return (hs : cb.Reached s) :
    cb.IsChain s.chain ∧
    (∀ name, ∃ r s',
      (∀ depth, (cb.index.unvisited s.chain).length ≤ depth →
        Returns (cb.resolveM depth name) s r s') ∧
      s'.chain = s.chain ∧
      ∃ new, s'.begun = new ++ s.begun ∧ cb.Nested s.chain new ∧
        ∀ chain ∈ new, cb.IsChain chain) ∧
    (∀ depth, (cb.index.unvisited s.chain).length ≤ depth → ∀ method steps,
      (∀ c (trail : Trail) (queue : Queue), (cb.index.unvisited trail.keys).length < steps →
        (searchParents (cb.resolveM depth) method steps trail c.parentName?).run.run s =
          (askParents (cb.resolveM depth) method (cb.index.ancestryFrom trail.keys c)).run.run s ∧
        (collectInterfaces (cb.resolveM depth) steps trail c.parentName? queue).run.run s =
          (do
            askEach (cb.resolveM depth) (cb.index.ancestryFrom trail.keys c).names
            pure (queue.add
              ((cb.index.ancestryFrom trail.keys c).ancestors.flatMap fun a => a.2.interfaceNames)) :
            SessionM Queue).run.run s ∧
        (trail.keys ++ (cb.index.ancestryFrom trail.keys c).names.map ClassName.key).Nodup) ∧
      (∀ queue : Queue, cb.index.pending queue < steps →
        (searchInterfaces (cb.resolveM depth) method steps queue).run.run s =
          (firstDonor (cb.resolveM depth) method
            (cb.index.interfacesFrom queue.taken queue.waiting)).run.run s ∧
        (queue.taken ++
          (cb.index.interfacesFrom queue.taken queue.waiting).map ClassName.key).Nodup)) ∧
    (s.chain = [] → ∀ keep name, ∃ r s', Returns (cb.documentM keep name) s r s' ∧ s'.chain = [] ∧
      ∃ new, s'.begun = new ++ s.begun ∧ cb.Nested [] new ∧ ∀ chain ∈ new, cb.IsChain chain) := by
  have hv := hs.valid
  refine ⟨⟨hv.nodup, hv.chain, length_chain_le hv.nodup hv.chain⟩, ?_, ?_, ?_⟩
  · intro name
    obtain ⟨r, s', hr, _, ha, _⟩ := (answers cb le_rfl).performs name s hv rfl
    exact ⟨r, s', fun depth hd => (run_resolveM_eq hd hv).trans hr, ha.chain, ha.begun_isChain hv⟩
  · intro depth hd method steps
    have hl := answers cb hd
    refine ⟨?_, ?_⟩
    · intro c trail queue hn
      exact ⟨run_searchParents hl method trail c hn hv rfl,
        run_collectInterfaces hl trail c queue hn hv rfl,
        ClassIndex.nodup_trail_ancestryFrom trail c⟩
    · intro queue hn
      exact ⟨run_searchInterfaces hl method queue hn hv rfl,
        ClassIndex.nodup_taken_interfacesFrom queue⟩
  · intro hc keep name
    obtain ⟨r, s', hr, _, ha, _⟩ := performs_documentM keep name hv hc
    have hb := ha.begun_isChain hv
    rw [hc] at hb
    exact ⟨r, s', hr, ha.chain.trans hc, hb⟩

/-! ### Two classes that extend each other -/

/-- A method that inherits its documentation. -/
def inheriting (name : Text) : MethodDecl := { name, comment := some "/** \x7b@inheritDoc\x7d */" }

namespace Twins

def run : MethodDecl := inheriting "run"

/-- An abstract method with documentation of its own. -/
def baseRun : MethodDecl := { name := "Run", isAbstract := true, comment := some "/** Runs. */" }

def task : ClassDecl := { name := "Task", parent := some "Base", methods := [run] }

def base : ClassDecl := { name := "Base", parent := some "Task", methods := [baseRun] }

end Twins

open Twins

/-- Each of the two classes is the parent of the other. -/
def twins : Codebase :=
  ⟨⟨[task, base], by decide⟩, ⟨fun _ => .error .missing⟩⟩

theorem twins_find_task : twins.index.find? "Task" = some task := by decide +kernel

theorem twins_find_base : twins.index.find? "\\Base" = some base := by decide +kernel

/-- The state in which the one class is being documented for the other. -/
def Twins.inner : Session :=
  (({} : Session).enter task.key).enter (ClassName.key "\\Base")

theorem twins_reached : twins.Reached inner :=
  .nested (.request .start twins_find_task) rfl (by decide +kernel) twins_find_base

/-- All questions return, although each class leads to the other, and no class has to be begun any more. -/
theorem twins_requests_return :
    twins.Reached inner ∧ twins.IsChain inner.chain ∧
    (∀ name, ∃ r s', (∀ depth, Returns (twins.resolveM depth name) inner r s') ∧
      s'.chain = inner.chain) ∧
    ∀ keep name, ∃ r s', Returns (twins.documentM keep name) {} r s' ∧ s'.chain = [] := by
  have hroom : (twins.index.unvisited inner.chain).length = 0 := by decide +kernel
  obtain ⟨hchain, hresolve, _⟩ := twins_reached.requests_return
  obtain ⟨_, _, _, hdocument⟩ := (Reached.start : twins.Reached {}).requests_return
  refine ⟨twins_reached, hchain, ?_, ?_⟩
  · intro name
    obtain ⟨r, s', hr, hc, _⟩ := hresolve name
    exact ⟨r, s', fun depth => hr depth (hroom.trans_le (Nat.zero_le depth)), hc⟩
  · intro keep name
    obtain ⟨r, s', hr, hc, _⟩ := hdocument rfl keep name
    exact ⟨r, s', hr, hc⟩

end Codebase

end ApiPages
