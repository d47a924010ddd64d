import ApiPages.Proofs.Termination

/-! # What a session remembers does not show

A class in memory was documented from classes remembered before it, so documenting it anew never comes back to
a class that is not remembered: it gives the same documentation wherever the classes on the chain are not
remembered (`Justified.resolve_eq`).  A session keeps this: a class is remembered after it has left the chain.
Only the class of a request itself may be on the chain and remembered, and then everything that it asks for is
remembered too (`documentM_remembered`).  So each request is answered as by `Codebase.document`, which has no
memory (`documentM_eq_document`). -/

namespace ApiPages

open SessionM

namespace Codebase

variable {cb : Codebase} {chain : List Text} {ask : Text → SessionM (Option ClassDoc)} {s s' : Session}
  {name : Text} {c : ClassDecl}

/-! ### Classes documented anew -/

theorem resolve_cycle (h : ClassName.key name ∈ chain) :
    cb.resolve chain name = .error (.cycle (ClassName.display name)) := by
  rw [resolve]
  exact dif_pos h

theorem resolve_unknown (h : ClassName.key name ∉ chain) (hf : cb.index.find? name = none) :
    cb.resolve chain name = .ok none := by
  rw [resolve]
  simp only [dif_neg h]
  split
  · rfl
  · simp_all

theorem resolve_known (h : ClassName.key name ∉ chain) (hf : cb.index.find? name = some c) :
    cb.resolve chain name =
      some <$> buildClass cb (cb.resolve (ClassName.key name :: chain)) keepAll c := by
  rw [resolve]
  simp only [dif_neg h]
  split
  · simp_all
  · simp_all

/-- The classes on the chain are known, and none is remembered. -/
def Unremembered (cb : Codebase) (chain : List Text) (cache : Cache) : Prop :=
  ∀ k ∈ chain, k ∈ cb.index.keys ∧ cache.find? k = none

theorem Unremembered.of_prefix {cache cache' : Cache} (h : cb.Unremembered chain cache')
    (hp : cache <+: cache') : cb.Unremembered chain cache := by
  intro k hk
  refine ⟨(h k hk).1, ?_⟩
  cases hd : cache.find? k with
  | none => rfl
  | some doc =>
      rw [← (h k hk).2, Cache.find?_of_prefix hp hd]

theorem Unremembered.cons {cache : Cache} (h : cb.Unremembered chain cache) {k : Text}
    (hk : k ∈ cb.index.keys) (hn : cache.find? k = none) : cb.Unremembered (k :: chain) cache := by
  intro k' hk'
  rcases List.mem_cons.mp hk' with rfl | hk'
  · exact ⟨hk, hn⟩
  · exact h k' hk'

theorem resolve_eq_of_remembered {cache : Cache} (hu : cb.Unremembered chain cache)
    (hr : ∀ name doc, cache.find? (ClassName.key name) = some doc →
      cb.resolve chain name = .ok (some doc))
    {doc? : Option ClassDoc} (h : cb.remembered cache name = .ok doc?) :
    cb.resolve chain name = .ok doc? := by
  cases hf : cb.index.find? name with
  | none =>
      have hk : ClassName.key name ∉ chain :=
        fun hk => ClassIndex.find?_eq_none_iff.mp hf (hu _ hk).1
      rw [remembered_unknown hf] at h
      rw [resolve_unknown hk hf, h]
  | some c =>
      obtain ⟨doc, rfl, hd⟩ := find?_of_remembered hf h
      exact hr name doc hd

/-- **What is remembered is what documenting anew gives**, while classes are being documented that are not
remembered.  A class in memory rests on classes remembered before it, so it does not come back to the
chain. -/
theorem Justified.resolve_eq {cache : Cache} (hj : cb.Justified cache)
    (hu : cb.Unremembered chain cache) {doc : ClassDoc}
    (hd : cache.find? (ClassName.key name) = some doc) : cb.resolve chain name = .ok (some doc) := by
  induction hj generalizing chain name doc with
  | nil => cases hd
  | @add cache n c d _ hn hnone hb ih =>
      have hu' := hu.of_prefix (List.prefix_append _ _)
      rcases Cache.find?_append_cases hd with hd' | ⟨hnone', hkey, rfl⟩
      · exact ih hu' hd'
      · have hk : ClassName.key name ∉ chain := by
          intro hk
          rw [(hu _ hk).2] at hd
          cases hd
        have hf : cb.index.find? name = some c := by rw [ClassIndex.find?_congr hkey, hn]
        have hin := hu'.cons (ClassIndex.key_mem_keys_of_find? hf) hnone'
        have hbuilt : buildClass cb (cb.resolve (ClassName.key name :: chain)) keepAll c = .ok doc :=
          buildClass_mono (fun _ _ hr => resolve_eq_of_remembered hin (fun _ _ => ih hin) hr) hb
        rw [resolve_known hk hf, hbuilt]
        rfl

/-! ### The answers of a session -/

/-- Steps on a chain of which no class is remembered, and their results without memory. -/
def anew (cb : Codebase) (chain : List Text) : Simulation (Except DocError) SessionM where
  rel x y := ∀ s, s.Valid cb → s.chain = chain → cb.Unremembered chain s.cache →
    ∃ s', Returns y s x s' ∧ s'.Valid cb ∧ cb.Advance s s'
  rel_pure a s hs _ _ := ⟨s, returns_pure a s, hs, .refl s⟩
  rel_throw e s hs _ _ := ⟨s, returns_throw e s, hs, .refl s⟩
  rel_bind {_ _ x y f g} hxy hfg s hs hc hu := by
    obtain ⟨s₁, hy, hs₁, ha₁⟩ := hxy s hs hc hu
    cases x with
    | error e => exact ⟨s₁, hy.run_bind_error, hs₁, ha₁⟩
    | ok a =>
        have hu₁ : cb.Unremembered chain s₁.cache := by
          intro k hk
          exact ⟨(hu k hk).1, (ha₁.held k (hc ▸ hk)).trans (hu k hk).2⟩
        obtain ⟨s₂, hg, hs₂, ha₂⟩ := hfg a s₁ hs₁ (ha₁.chain.trans hc) hu₁
        exact ⟨s₂, hy.run_bind_ok.trans hg, hs₂, ha₁.trans ha₂⟩

/-- On the chain, every class is answered as if nothing was remembered. -/
def AnswersAnew (cb : Codebase) (chain : List Text) (ask : Text → SessionM (Option ClassDoc)) : Prop :=
  ∀ name, (cb.anew chain).rel (cb.resolve chain name) (ask name)

theorem AnswersAnew.buildClassM (h : cb.AnswersAnew chain ask) (hl : cb.Answers chain ask)
    (keep : MethodDecl → Bool) (c : ClassDecl) :
    (cb.anew chain).rel (buildClass cb (cb.resolve chain) keep c) (cb.buildClassM ask keep c) := by
  intro s hs hc hu
  obtain ⟨s', hr, hrest⟩ := (cb.anew chain).rel_buildClass h cb keep c s hs hc hu
  exact ⟨s', (run_buildClassM hl keep c hs hc).trans hr, hrest⟩

theorem AnswersAnew.recallOr {build : ClassDecl → SessionM ClassDoc}
    (hl : cb.Answers chain (cb.recallOr build))
    (h : ∀ k, k ∉ chain → k ∈ cb.index.keys → ∀ c,
      (cb.anew (k :: chain)).rel (buildClass cb (cb.resolve (k :: chain)) keepAll c) (build c)) :
    cb.AnswersAnew chain (cb.recallOr build) := by
  intro name s hs hc hu
  subst hc
  -- the state after the question is valid, whatever the answer
  obtain ⟨r, s', hr, hs', ha, _⟩ := hl.performs name s hs rfl
  suffices hres : ∃ t, Returns (cb.recallOr build name) s (cb.resolve s.chain name) t by
    obtain ⟨t, ht⟩ := hres
    obtain ⟨rfl, rfl⟩ := hr.unique ht
    exact ⟨s', hr, hs', ha⟩
  cases hd : s.cache.find? (ClassName.key name) with
  | some doc =>
      rw [hs.cache.resolve_eq hu hd]
      exact ⟨s, recallOr_remembered hd⟩
  | none =>
      by_cases hk : ClassName.key name ∈ s.chain
      · rw [resolve_cycle hk]
        exact ⟨s, recallOr_cycle hd hk⟩
      cases hf : cb.index.find? name with
      | none =>
          rw [resolve_unknown hk hf]
          exact ⟨s, recallOr_unknown hs hf⟩
      | some c =>
          have hi := ClassIndex.key_mem_keys_of_find? hf
          obtain ⟨t, ht, _⟩ := h _ hk hi c _ (hs.enter hk hi) rfl (hu.cons hi hd)
          rw [resolve_known hk hf]
          cases hb : buildClass cb (cb.resolve (ClassName.key name :: s.chain)) keepAll c with
          | error e =>
              rw [hb] at ht
              exact ⟨_, recallOr_failed hd hk hf ht⟩
          | ok doc =>
              rw [hb] at ht
              exact ⟨_, recallOr_built hd hk hf ht⟩

theorem answersAnew (cb : Codebase) {depth : Nat} {chain : List Text}
    (hd : (cb.index.unvisited chain).length ≤ depth) :
    cb.AnswersAnew chain (cb.resolveM depth) := by
  induction depth generalizing chain with
  | zero =>
      refine AnswersAnew.recallOr (answers cb hd) fun k hk hi => ?_
      exact absurd (ClassIndex.length_unvisited_cons_lt hi hk) (by omega)
  | succ depth ih =>
      refine AnswersAnew.recallOr (answers cb hd) fun k hk hi => ?_
      have hroom := ClassIndex.length_unvisited_cons_le hi hk hd
      exact (ih hroom).buildClassM (answers cb hroom) keepAll

/-- Steps that succeed with what is in `cache` find all of it in memory and do not change the state. -/
def fromMemory (cb : Codebase) (cache : Cache) : Simulation (Except DocError) SessionM where
  rel x y := ∀ a, x = .ok a → ∀ s, s.Valid cb → cache <+: s.cache → Returns y s (.ok a) s
  rel_pure a _ h s _ _ := by
    cases h
    exact returns_pure a s
  rel_throw _ _ h := by cases h
  rel_bind {_ _ x y f g} hxy hfg b hb s hs hp := by
    cases x with
    | error e => cases hb
    | ok a => exact (hxy a rfl s hs hp).run_bind_ok.trans (hfg a b hb s hs hp)

theorem Answers.fromMemory (hl : cb.Answers chain ask) (cache : Cache) (name : Text) :
    (cb.fromMemory cache).rel (cb.remembered cache name) (ask name) := by
  intro doc? h s hs hp
  cases hf : cb.index.find? name with
  | none =>
      rw [remembered_unknown hf] at h
      cases h
      exact hl.unknown hs hf
  | some c =>
      obtain ⟨doc, rfl, hd⟩ := find?_of_remembered hf h
      exact hl.remembered (Cache.find?_of_prefix hp hd)

variable {keep : MethodDecl → Bool}

theorem document_unknown (hf : cb.index.find? name = none) :
    cb.document keep name = .error (.unknownClass (ClassName.display name)) := by
  unfold document
  rw [hf]

theorem document_known (hf : cb.index.find? name = some c) :
    cb.document keep name = buildClass cb (cb.resolve [c.key]) keep c := by
  unfold document
  rw [hf]

/-- A class that is remembered already rests on classes that are remembered as well, so with fewer methods it is
documented from memory. -/
theorem documentM_remembered (hs : s.Valid cb) (hc : s.chain = []) (hf : cb.index.find? name = some c)
    {doc : ClassDoc} (hd : s.cache.find? (ClassName.key name) = some doc) :
    Returns (cb.documentM keep name) s (cb.document keep name) (s.enter c.key).leave := by
  obtain ⟨c', before, hf', hp, hj, hnone, hb⟩ := hs.cache.source hd
  rw [hf] at hf'
  cases hf'
  have hkey := ClassIndex.key_eq_of_find? hf
  have hi : c.key ∈ cb.index.keys := List.mem_map_of_mem (ClassIndex.mem_of_find? hf)
  have hse : (s.enter c.key).Valid cb := hs.enter (hc ▸ List.not_mem_nil) hi
  have hu : cb.Unremembered [c.key] before := by
    refine Unremembered.cons (List.forall_mem_nil _) hi ?_
    rw [hkey]
    exact hnone
  obtain ⟨doc', hb'⟩ := exists_buildClass_of_keepAll keep hb
  have hplain : buildClass cb (cb.resolve [c.key]) keep c = .ok doc' :=
    buildClass_mono (fun _ _ hr => resolve_eq_of_remembered hu (fun _ _ => hj.resolve_eq hu) hr) hb'
  have hl := answers cb (cb.index.length_unvisited_le (s.enter c.key).chain)
  have hrun := (cb.fromMemory before).rel_buildClass (hl.fromMemory before) cb keep c doc' hb'
    (s.enter c.key) hse hp
  rw [document_known hf, hplain]
  exact documentM_known hf ((run_buildClassM hl keep c hse rfl).trans hrun)

/-- **A request is answered as if nothing was remembered.** -/
theorem documentM_eq_document (keep : MethodDecl → Bool) (name : Text) (hs : s.Valid cb)
    (hc : s.chain = []) :
    ∃ s', Returns (cb.documentM keep name) s (cb.document keep name) s' ∧ s'.Valid cb ∧
      cb.Advance s s' := by
  obtain ⟨r, s', hr, hs', ha, _⟩ := performs_documentM keep name hs hc
  suffices hres : ∃ t, Returns (cb.documentM keep name) s (cb.document keep name) t by
    obtain ⟨t, ht⟩ := hres
    obtain ⟨rfl, rfl⟩ := hr.unique ht
    exact ⟨s', hr, hs', ha⟩
  cases hf : cb.index.find? name with
  | none =>
      rw [document_unknown hf]
      exact ⟨s, documentM_unknown hf⟩
  | some c =>
      cases hd : s.cache.find? (ClassName.key name) with
      | some doc => exact ⟨_, documentM_remembered hs hc hf hd⟩
      | none =>
          have hkey := ClassIndex.key_eq_of_find? hf
          have hi : c.key ∈ cb.index.keys := List.mem_map_of_mem (ClassIndex.mem_of_find? hf)
          have hse : (s.enter c.key).Valid cb := hs.enter (hc ▸ List.not_mem_nil) hi
          have hu : cb.Unremembered [c.key] s.cache :=
            Unremembered.cons (List.forall_mem_nil _) hi (hkey ▸ hd)
          have hchain : (s.enter c.key).chain = [c.key] := congrArg (c.key :: ·) hc
          have hroom := cb.index.length_unvisited_le [c.key]
          obtain ⟨t, ht, _⟩ :=
            (answersAnew cb hroom).buildClassM (answers cb hroom) keep c _ hse hchain hu
          rw [document_known hf]
          exact ⟨_, documentM_known hf ht⟩

/-- A request is answered by the page that is computed without a session. -/
theorem exists_page {β : Type} {f : ClassDoc → β} {b : β} (keep : MethodDecl → Bool) (name : Text)
    (h : (cb.document keep name).toOption.map f = some b) (hs : s.Valid cb) (hc : s.chain = []) :
    ∃ doc s', Returns (cb.documentM keep name) s (.ok doc) s' ∧ f doc = b := by
  obtain ⟨s', hr, _⟩ := documentM_eq_document keep name hs hc
  cases hd : cb.document keep name with
  | error e =>
      rw [hd] at h
      cases h
  | ok doc =>
      rw [hd] at h hr
      exact ⟨doc, s', hr, Option.some.inj h⟩

/-! ### Many requests -/

/-- The answer of a session to its first request. -/
def firstAnswer (cb : Codebase) (keep : MethodDecl → Bool) (name : Text) :
    Option (Except DocError ClassDoc) :=
  ((cb.documentM keep name).run.run {}).map Prod.fst

theorem firstAnswer_eq (cb : Codebase) (keep : MethodDecl → Bool) (name : Text) :
    cb.firstAnswer keep name = some (cb.document keep name) := by
  obtain ⟨s', h, _⟩ := documentM_eq_document keep name (Session.valid_start cb) rfl
  unfold firstAnswer
  rw [h]
  rfl

/-- What is remembered under a key is the documentation of the class with that key and all its methods. -/
def Faithful (cb : Codebase) (cache : Cache) : Prop :=
  ∀ k doc, (k, doc) ∈ cache →
    ∃ c ∈ cb.index.classes, c.key = k ∧ cb.firstAnswer keepAll c.name = some (.ok doc)

theorem Justified.find?_of_mem {cache : Cache} (hj : cb.Justified cache) {k : Text} {doc : ClassDoc}
    (h : (k, doc) ∈ cache) : ∃ name, ClassName.key name = k ∧ cache.find? k = some doc := by
  induction hj with
  | nil => cases h
  | @add cache n c d _ _ hnone _ ih =>
      rcases List.mem_append.mp h with h | h
      · obtain ⟨name, hk, hd⟩ := ih h
        exact ⟨name, hk, Cache.find?_append_eq_some hd⟩
      · obtain ⟨rfl, rfl⟩ := Prod.mk.inj (List.mem_singleton.mp h)
        exact ⟨n, rfl, Cache.find?_append_self hnone⟩

/-- A class in memory, documented anew. -/
theorem Justified.document_eq {cache : Cache} (hj : cb.Justified cache)
    (hf : cb.index.find? name = some c) {doc : ClassDoc}
    (hd : cache.find? (ClassName.key name) = some doc) : cb.document keepAll name = .ok doc := by
  have hres := hj.resolve_eq (List.forall_mem_nil _ : cb.Unremembered [] cache) hd
  rw [resolve_known List.not_mem_nil hf, ← ClassIndex.key_eq_of_find? hf] at hres
  rw [document_known hf]
  cases hb : buildClass cb (cb.resolve [c.key]) keepAll c with
  | error e => rw [hb] at hres; cases hres
  | ok doc' =>
      rw [hb] at hres
      cases hres
      rfl

theorem Justified.firstAnswer_of_remembered {cache : Cache} (hj : cb.Justified cache)
    (hf : cb.index.find? name = some c) {doc? : Option ClassDoc}
    (hr : cb.remembered cache name = .ok doc?) :
    ∃ doc, doc? = some doc ∧ cache.find? (ClassName.key name) = some doc ∧
      cb.firstAnswer keepAll name = some (.ok doc) := by
  obtain ⟨doc, rfl, hd⟩ := find?_of_remembered hf hr
  refine ⟨doc, rfl, hd, ?_⟩
  rw [firstAnswer_eq, hj.document_eq hf hd]

theorem Justified.faithful {cache : Cache} (hj : cb.Justified cache) : cb.Faithful cache := by
  intro k doc h
  obtain ⟨name, rfl, hd⟩ := hj.find?_of_mem h
  obtain ⟨c, _, hf, _⟩ := hj.source hd
  have hkey : c.key = ClassName.key name := ClassIndex.key_eq_of_find? hf
  have hmem := ClassIndex.mem_of_find? hf
  refine ⟨c, hmem, hkey, ?_⟩
  rw [firstAnswer_eq, hj.document_eq (ClassIndex.find?_name_of_mem hmem) (hkey ▸ hd)]

section Requests

variable {cache : Cache}

/-- One request, and then the others with what is remembered after it. -/
theorem documentEach_cons (names : List Text) (hs : ({ cache } : Session).Valid cb) :
    ∃ cache', ({ cache := cache' } : Session).Valid cb ∧ cache <+: cache' ∧
      cb.documentEach keep cache (name :: names) =
        (cb.document keep name :: (cb.documentEach keep cache' names).1,
          (cb.documentEach keep cache' names).2) := by
  obtain ⟨s', hr, hs', ha⟩ := documentM_eq_document keep name hs rfl
  refine ⟨s'.cache, hs'.between, ha.cache, ?_⟩
  rw [documentEach, hr]

theorem documentEach_answers (names : List Text) (hs : ({ cache } : Session).Valid cb) :
    (cb.documentEach keep cache names).1 = names.map (cb.document keep) := by
  induction names generalizing cache with
  | nil => rfl
  | cons name names ih =>
      obtain ⟨cache', hs', _, heq⟩ := documentEach_cons names hs
      rw [heq, ih hs', List.map_cons]

theorem valid_documentEach (names : List Text) (hs : ({ cache } : Session).Valid cb) :
    ({ cache := (cb.documentEach keep cache names).2 } : Session).Valid cb := by
  induction names generalizing cache with
  | nil => exact hs
  | cons name names ih =>
      obtain ⟨cache', hs', _, heq⟩ := documentEach_cons names hs
      rw [heq]
      exact ih hs'

theorem prefix_documentEach_append (names later : List Text) (hs : ({ cache } : Session).Valid cb) :
    (cb.documentEach keep cache names).2 <+: (cb.documentEach keep cache (names ++ later)).2 := by
  induction names generalizing cache with
  | nil =>
      induction later generalizing cache with
      | nil => exact List.prefix_refl _
      | cons name later ih =>
          obtain ⟨cache', hs', hp, heq⟩ := documentEach_cons later hs
          rw [List.nil_append, heq]
          exact hp.trans (ih hs')
  | cons name names ih =>
      obtain ⟨s', hr, hs', _⟩ := documentM_eq_document keep name hs rfl
      rw [List.cons_append, documentEach, hr, documentEach, hr]
      exact ih hs'.between

end Requests

/-- **What a session remembers does not show in its answers.**  Each of its answers is that of a session which
gets this request only.  Later requests only add to what it remembers, and so does every question during a
request; all that it ever remembers are answers to first requests without a filter. -/
theorem documentEach_eq_firstAnswers (cb : Codebase) (keep : MethodDecl → Bool) (names : List Text) :
    (cb.documentEach keep [] names).1.map some = names.map (cb.firstAnswer keep) ∧
    (∀ later, (cb.documentEach keep [] names).2 <+: (cb.documentEach keep [] (names ++ later)).2) ∧
    cb.Faithful (cb.documentEach keep [] names).2 ∧
    (∀ s, cb.Reached s → cb.Faithful s.cache ∧
      ∀ depth name r s', (cb.index.unvisited s.chain).length ≤ depth →
        Returns (cb.resolveM depth name) s r s' → s.cache <+: s'.cache) := by
  have hstart := Session.valid_start cb
  refine ⟨?_, ?_, ?_, ?_⟩
  · rw [documentEach_answers names hstart, List.map_map]
    exact List.map_congr_left fun name _ => (firstAnswer_eq cb keep name).symm
  · intro later
    exact prefix_documentEach_append names later hstart
  · exact (valid_documentEach names hstart).cache.faithful
  · intro s hs
    refine ⟨hs.valid.cache.faithful, ?_⟩
    intro depth name r s' hd hr
    obtain ⟨r', t, hr', _, ha, _⟩ := (answers cb hd).performs name s hs.valid rfl
    obtain ⟨_, rfl⟩ := hr.unique hr'
    exact ha.cache

/-- Two classes that extend each other, asked for in turn, and what is remembered after the first of them. -/
theorem twins_eq_firstAnswers :
    (twins.documentEach keepAll [] ["Task", "Base", "Task"]).1.map some =
      (["Task", "Base", "Task"] : List Text).map (twins.firstAnswer keepAll) ∧
    ∃ r s', Returns (twins.documentM keepAll "Task") {} r s' ∧
      twins.Reached { cache := s'.cache } ∧ twins.Faithful s'.cache := by
  obtain ⟨hanswers, _, _, hreached⟩ :=
    documentEach_eq_firstAnswers twins keepAll ["Task", "Base", "Task"]
  obtain ⟨s', hr, _⟩ := documentM_eq_document keepAll "Task" (Session.valid_start twins) rfl
  have hs' : twins.Reached { cache := s'.cache } := .document .start hr
  exact ⟨hanswers, _, s', hr, hs', (hreached _ hs').1⟩

end Codebase

end ApiPages
