import Mathlib.Data.List.Perm.Subperm
import ApiPages.Documenter.Session
import ApiPages.Proofs.Asking
import ApiPages.Proofs.Hierarchy

/-! # The steps of a session

`SessionM.Returns x s r s'` says that the step `x`, taken in the state `s`, comes to an end with the result `r`
in the state `s'`.  What every step keeps is collected in `Codebase.Advance`: the chain is left as it was
found, the cache only grows at its end, and the classes begun meanwhile are nested in the chain.

What a session remembers is `Codebase.Justified`: each class was documented from classes remembered before it.
This is the invariant of all sessions (`Session.Valid`). -/

namespace ApiPages

namespace SessionM

variable {α β : Type}

/-- The step comes to an end, with a result and a state. -/
def Returns (x : SessionM α) (s : Session) (r : Except DocError α) (s' : Session) : Prop :=
  x.run.run s = some (r, s')

theorem run_bind (x : SessionM α) (f : α → SessionM β) (s : Session) :
    (x >>= f).run.run s = (x.run.run s).bind fun p =>
      match p.1 with
      | .ok a => (f a).run.run p.2
      | .error e => some (.error e, p.2) := by
  change (x.run.run s).bind _ = _
  congr 1
  funext p
  obtain ⟨r, s'⟩ := p
  cases r <;> rfl

theorem run_bind_congr {x y : SessionM α} {s : Session} (h : x.run.run s = y.run.run s)
    (f : α → SessionM β) : (x >>= f).run.run s = (y >>= f).run.run s := by
  rw [run_bind, h, ← run_bind]

theorem returns_pure (a : α) (s : Session) : Returns (pure a) s (.ok a) s := rfl

theorem returns_throw (e : DocError) (s : Session) : Returns (throw e : SessionM α) s (.error e) s :=
  rfl

variable {x : SessionM α} {f : α → SessionM β} {s s' : Session}

theorem Returns.run_bind_ok {a : α} (h : Returns x s (.ok a) s') :
    (x >>= f).run.run s = (f a).run.run s' := by
  rw [run_bind, h]
  rfl

theorem Returns.run_bind_error {e : DocError} (h : Returns x s (.error e) s') :
    (x >>= f).run.run s = some (.error e, s') := by
  rw [run_bind, h]
  rfl

theorem Returns.unique {r r' : Except DocError α} {t : Session} (h : Returns x s r s')
    (h' : Returns x s r' t) : r = r' ∧ s' = t :=
  Prod.mk.inj (Option.some.inj (h.symm.trans h'))

theorem run_within (k : Text) (x : SessionM α) (s : Session) :
    (within k x).run.run s = (x.run.run (s.enter k)).bind fun p => some (p.1, p.2.leave) :=
  rfl

theorem returns_within {k : Text} {r : Except DocError α} {t : Session}
    (h : Returns x (s.enter k) r t) : Returns (within k x) s r t.leave := by
  unfold Returns
  rw [run_within, h]
  rfl

end SessionM

open SessionM

/-! ### Memory -/

namespace Cache

variable {cache cache' : Cache} {k k' : Text} {doc doc' : ClassDoc}

theorem find?_append_eq_some (h : cache.find? k = some doc) : (cache ++ cache').find? k = some doc := by
  unfold find? at h ⊢
  rw [List.lookup_append, h]
  rfl

theorem find?_of_prefix (hp : cache <+: cache') (h : cache.find? k = some doc) :
    cache'.find? k = some doc := by
  obtain ⟨rest, rfl⟩ := hp
  exact find?_append_eq_some h

theorem add_of_find?_eq_none (h : cache.find? k = none) : cache.add k doc = cache ++ [(k, doc)] := by
  unfold add
  rw [h]

theorem find?_append_self (h : cache.find? k = none) : (cache ++ [(k, doc)]).find? k = some doc := by
  unfold find? at h ⊢
  rw [List.lookup_append, h]
  simp

theorem find?_append_of_ne (h : k' ≠ k) : (cache ++ [(k, doc)]).find? k' = cache.find? k' := by
  have hb : (k' == k) = false := beq_false_of_ne h
  unfold find?
  rw [List.lookup_append, List.lookup_cons, hb]
  exact Option.or_none

theorem find?_append_cases (h : (cache ++ [(k, doc)]).find? k' = some doc') :
    cache.find? k' = some doc' ∨ (cache.find? k' = none ∧ k' = k ∧ doc' = doc) := by
  cases hc : cache.find? k' with
  | some d =>
      rw [find?_append_eq_some hc] at h
      exact .inl h
  | none =>
      by_cases hk : k' = k
      · subst hk
        rw [find?_append_self hc] at h
        exact .inr ⟨rfl, rfl, (Option.some.inj h).symm⟩
      · rw [find?_append_of_ne hk, hc] at h
        cases h

end Cache

namespace Codebase

variable {cb : Codebase}

/-- Answers from memory alone. -/
def remembered (cb : Codebase) (cache : Cache) (name : Text) : Except DocError (Option ClassDoc) :=
  match cb.index.find? name with
  | none => .ok none
  | some _ =>
    match cache.find? (ClassName.key name) with
    | none => .error (.cycle (ClassName.display name))
    | some doc => .ok (some doc)

theorem remembered_unknown {cache : Cache} {name : Text} (h : cb.index.find? name = none) :
    cb.remembered cache name = .ok none := by
  unfold remembered
  rw [h]

theorem remembered_known {cache : Cache} {name : Text} {c : ClassDecl} {doc : ClassDoc}
    (h : cb.index.find? name = some c) (hd : cache.find? (ClassName.key name) = some doc) :
    cb.remembered cache name = .ok (some doc) := by
  unfold remembered
  rw [h, hd]

theorem find?_of_remembered {cache : Cache} {name : Text} {c : ClassDecl} {doc? : Option ClassDoc}
    (h : cb.index.find? name = some c) (hr : cb.remembered cache name = .ok doc?) :
    ∃ doc, doc? = some doc ∧ cache.find? (ClassName.key name) = some doc := by
  unfold remembered at hr
  rw [h] at hr
  cases hd : cache.find? (ClassName.key name) with
  | none => rw [hd] at hr; cases hr
  | some doc =>
      rw [hd] at hr
      exact ⟨doc, (Except.ok.inj hr).symm, rfl⟩

/-- Every class in memory was documented from those remembered before it, and none is there twice. -/
inductive Justified (cb : Codebase) : Cache → Prop
  | nil : Justified cb []
  | add {cache : Cache} {name : Text} {c : ClassDecl} {doc : ClassDoc} :
      Justified cb cache → cb.index.find? name = some c → cache.find? (ClassName.key name) = none →
      buildClass cb (cb.remembered cache) keepAll c = .ok doc →
      Justified cb (cache ++ [(ClassName.key name, doc)])

/-- What is known about a class in memory: the memory from which it was documented. -/
theorem Justified.source {cache : Cache} (hj : cb.Justified cache) {name : Text} {doc : ClassDoc}
    (h : cache.find? (ClassName.key name) = some doc) :
    ∃ (c : ClassDecl) (before : Cache), cb.index.find? name = some c ∧ before <+: cache ∧ cb.Justified before ∧
      before.find? (ClassName.key name) = none ∧
      buildClass cb (cb.remembered before) keepAll c = .ok doc := by
  induction hj with
  | nil => cases h
  | @add cache n c d hj hc hn hb ih =>
      rcases Cache.find?_append_cases h with h | ⟨hk, hkn, rfl⟩
      · obtain ⟨c', before, hc', hp, hj', hk, hb'⟩ := ih h
        exact ⟨c', before, hc', hp.trans (List.prefix_append _ _), hj', hk, hb'⟩
      · refine ⟨c, cache, ?_, List.prefix_append _ _, hj, hk, hb⟩
        rw [ClassIndex.find?_congr hkn, hc]

theorem Justified.known {cache : Cache} (hj : cb.Justified cache) {name : Text} {doc : ClassDoc}
    (h : cache.find? (ClassName.key name) = some doc) : ClassName.key name ∈ cb.index.keys := by
  obtain ⟨c, _, hc, _⟩ := hj.source h
  exact ClassIndex.key_mem_keys_of_find? hc

/-- The documentation in memory names the parent and the interfaces of the class. -/
theorem Justified.header {cache : Cache} (hj : cb.Justified cache) {name : Text} {c : ClassDecl}
    {doc : ClassDoc} (hc : cb.index.find? name = some c)
    (h : cache.find? (ClassName.key name) = some doc) :
    doc.parent = c.parentName? ∧ doc.interfaces = c.interfaceNames := by
  obtain ⟨c', before, hc', _, _, _, hb⟩ := hj.source h
  rw [hc] at hc'
  cases hc'
  obtain ⟨methods, _, rfl⟩ := buildClass_eq_ok_iff.mp hb
  exact ⟨rfl, rfl⟩

/-! ### What every step keeps -/

/-- The chains on which classes were begun, the latest first, while the classes of the chain `base` were
being documented: each adds one new key of the index to `base` or to a chain before it. -/
inductive Nested (cb : Codebase) (base : List Text) : List (List Text) → Prop
  | nil : Nested cb base []
  | cons {k : Text} {chain : List Text} {earlier : List (List Text)} :
      Nested cb base earlier → chain = base ∨ chain ∈ earlier → k ∉ chain → k ∈ cb.index.keys →
      Nested cb base ((k :: chain) :: earlier)

theorem Nested.append {base : List Text} {later earlier : List (List Text)}
    (h : cb.Nested base later) (h' : cb.Nested base earlier) : cb.Nested base (later ++ earlier) := by
  induction h with
  | nil => exact h'
  | cons _ hc hk hi ih =>
      refine .cons ih ?_ hk hi
      rcases hc with hc | hc
      · exact .inl hc
      · exact .inr (List.mem_append_left _ hc)

/-- What is begun inside of a class, together with the class itself. -/
theorem Nested.within {base : List Text} {k : Text} {begun : List (List Text)}
    (h : cb.Nested (k :: base) begun) (hk : k ∉ base) (hi : k ∈ cb.index.keys) :
    cb.Nested base (begun ++ [k :: base]) := by
  induction h with
  | nil => exact .cons .nil (.inl rfl) hk hi
  | cons _ hc hk' hi' ih =>
      refine .cons ih ?_ hk' hi'
      rcases hc with rfl | hc
      · exact .inr (List.mem_append_right _ (List.mem_singleton_self _))
      · exact .inr (List.mem_append_left _ hc)

/-- Chains that are nested in a chain of distinct known keys are such chains. -/
theorem Nested.distinct {base : List Text} {begun : List (List Text)} (h : cb.Nested base begun)
    (hd : base.Nodup) (hb : ∀ k ∈ base, k ∈ cb.index.keys) :
    ∀ chain ∈ begun, chain.Nodup ∧ ∀ k ∈ chain, k ∈ cb.index.keys := by
  induction h with
  | nil => intro chain hc; cases hc
  | @cons k rest earlier _ hc hk hi ih =>
      have hrest : rest.Nodup ∧ ∀ k ∈ rest, k ∈ cb.index.keys := by
        rcases hc with rfl | hc
        · exact ⟨hd, hb⟩
        · exact ih rest hc
      intro chain hchain
      rcases List.mem_cons.mp hchain with rfl | hchain
      · refine ⟨List.nodup_cons.mpr ⟨hk, hrest.1⟩, ?_⟩
        intro k' hk'
        rcases List.mem_cons.mp hk' with rfl | hk'
        · exact hi
        · exact hrest.2 k' hk'
      · exact ih chain hchain

/-- A chain of distinct known keys is no longer than the index. -/
theorem length_chain_le {chain : List Text} (hd : chain.Nodup) (hk : ∀ k ∈ chain, k ∈ cb.index.keys) :
    chain.length ≤ cb.index.size := by
  have hl := (List.subperm_of_subset hd hk).length_le
  rwa [ClassIndex.keys, List.length_map] at hl

/-- What a step keeps of the state. -/
structure Advance (cb : Codebase) (s s' : Session) : Prop where
  chain : s'.chain = s.chain
  cache : s.cache <+: s'.cache
  /-- A class that is being documented is not remembered meanwhile. -/
  held : ∀ k ∈ s.chain, s'.cache.find? k = s.cache.find? k
  begun : ∃ new, s'.begun = new ++ s.begun ∧ cb.Nested s.chain new

theorem Advance.refl (s : Session) : cb.Advance s s where
  chain := rfl
  cache := List.prefix_refl _
  held _ _ := rfl
  begun := ⟨[], rfl, .nil⟩

theorem Advance.trans {s₁ s₂ s₃ : Session} (h : cb.Advance s₁ s₂) (h' : cb.Advance s₂ s₃) :
    cb.Advance s₁ s₃ where
  chain := h'.chain.trans h.chain
  cache := h.cache.trans h'.cache
  held k hk := (h'.held k (h.chain ▸ hk)).trans (h.held k hk)
  begun := by
    obtain ⟨new, hb, hn⟩ := h.begun
    obtain ⟨new', hb', hn'⟩ := h'.begun
    rw [h.chain] at hn'
    refine ⟨new' ++ new, ?_, hn'.append hn⟩
    rw [hb', hb, List.append_assoc]

theorem Advance.leave {s t : Session} {k : Text} (h : cb.Advance (s.enter k) t) (hk : k ∉ s.chain)
    (hi : k ∈ cb.index.keys) : cb.Advance s t.leave where
  chain := by
    have := h.chain
    simp only [Session.leave, this, Session.enter, List.tail_cons]
  cache := h.cache
  held k' hk' := h.held k' (List.mem_cons_of_mem k hk')
  begun := by
    obtain ⟨new, hb, hn⟩ := h.begun
    refine ⟨new ++ [k :: s.chain], ?_, hn.within hk hi⟩
    simp only [Session.leave, hb, Session.enter, List.append_assoc, List.singleton_append]

theorem Advance.remember {s t : Session} {k : Text} (h : cb.Advance s t)
    (hn : t.cache.find? k = none) (hk : k ∉ s.chain) (doc : ClassDoc) :
    cb.Advance s (t.remember k doc) where
  chain := h.chain
  cache := by
    simp only [Session.remember, Cache.add_of_find?_eq_none hn]
    exact h.cache.trans (List.prefix_append _ _)
  held k' hk' := by
    have hne : k' ≠ k := fun he => hk (he ▸ hk')
    simp only [Session.remember, Cache.add_of_find?_eq_none hn, Cache.find?_append_of_ne hne]
    exact h.held k' hk'
  begun := h.begun

end Codebase

/-- The states of all sessions: what is remembered is justified, and the classes that are being documented
are distinct classes of the index. -/
structure Session.Valid (cb : Codebase) (s : Session) : Prop where
  cache : cb.Justified s.cache
  chain : ∀ k ∈ s.chain, k ∈ cb.index.keys
  nodup : s.chain.Nodup

theorem Session.valid_start (cb : Codebase) : ({} : Session).Valid cb where
  cache := .nil
  chain := List.forall_mem_nil _
  nodup := List.nodup_nil

/-- Between requests a session keeps only what it remembers. -/
theorem Session.Valid.between {cb : Codebase} {s : Session} (hs : s.Valid cb) :
    ({ cache := s.cache } : Session).Valid cb where
  cache := hs.cache
  chain := List.forall_mem_nil _
  nodup := List.nodup_nil

theorem Session.Valid.enter {cb : Codebase} {s : Session} (hs : s.Valid cb) {k : Text}
    (hk : k ∉ s.chain) (hi : k ∈ cb.index.keys) : (s.enter k).Valid cb where
  cache := hs.cache
  chain k' hk' := by
    rcases List.mem_cons.mp hk' with rfl | hk'
    · exact hi
    · exact hs.chain k' hk'
  nodup := List.nodup_cons.mpr ⟨hk, hs.nodup⟩

theorem Session.Valid.leave {cb : Codebase} {s : Session} (hs : s.Valid cb) : s.leave.Valid cb where
  cache := hs.cache
  chain k hk := hs.chain k (List.mem_of_mem_tail hk)
  nodup := hs.nodup.tail

/-! ### Asking for a class -/

namespace Codebase

variable {cb : Codebase} {build : ClassDecl → SessionM ClassDoc} {s t : Session} {name : Text}
  {c : ClassDecl} {doc : ClassDoc}

theorem run_recallOr (cb : Codebase) (build : ClassDecl → SessionM ClassDoc) (name : Text)
    (s : Session) :
    (cb.recallOr build name).run.run s =
      match s.cache.find? (ClassName.key name) with
      | some doc => some (.ok (some doc), s)
      | none =>
        if ClassName.key name ∈ s.chain then some (.error (.cycle (ClassName.display name)), s)
        else
          match cb.index.find? name with
          | none => some (.ok none, s)
          | some c =>
            ((within (ClassName.key name) (build c)).run.run s).bind fun p =>
              match p.1 with
              | .error e => some (.error e, p.2)
              | .ok doc => some (.ok (some doc), p.2.remember (ClassName.key name) doc) := by
  unfold recallOr
  simp only [ExceptT.run, StateT.run_bind, StateT.run_get, pure_bind]
  cases s.cache.find? (ClassName.key name) with
  | some doc => rfl
  | none =>
      by_cases hk : ClassName.key name ∈ s.chain
      · simp only [if_pos hk]
        rfl
      · simp only [if_neg hk]
        cases cb.index.find? name with
        | none => rfl
        | some c =>
            change ((within (ClassName.key name) (build c)).run.run s).bind _ = _
            congr 1
            funext p
            obtain ⟨r, t⟩ := p
            cases r <;> rfl

theorem recallOr_remembered (h : s.cache.find? (ClassName.key name) = some doc) :
    Returns (cb.recallOr build name) s (.ok (some doc)) s := by
  unfold Returns
  rw [run_recallOr, h]

theorem recallOr_cycle (hd : s.cache.find? (ClassName.key name) = none)
    (hk : ClassName.key name ∈ s.chain) :
    Returns (cb.recallOr build name) s (.error (.cycle (ClassName.display name))) s := by
  unfold Returns
  rw [run_recallOr, hd]
  exact if_pos hk

theorem recallOr_unknown (hs : s.Valid cb) (hc : cb.index.find? name = none) :
    Returns (cb.recallOr build name) s (.ok none) s := by
  have hk := ClassIndex.find?_eq_none_iff.mp hc
  have hd : s.cache.find? (ClassName.key name) = none := by
    cases hd : s.cache.find? (ClassName.key name) with
    | none => rfl
    | some doc => exact absurd (hs.cache.known hd) hk
  unfold Returns
  rw [run_recallOr, hd]
  simp only [if_neg fun h => hk (hs.chain _ h), hc]

theorem recallOr_failed {e : DocError} (hd : s.cache.find? (ClassName.key name) = none)
    (hk : ClassName.key name ∉ s.chain) (hc : cb.index.find? name = some c)
    (h : Returns (build c) (s.enter (ClassName.key name)) (.error e) t) :
    Returns (cb.recallOr build name) s (.error e) t.leave := by
  have hw := returns_within h
  unfold Returns at hw ⊢
  rw [run_recallOr, hd]
  simp only [if_neg hk, hc, hw, Option.bind_some]

theorem recallOr_built (hd : s.cache.find? (ClassName.key name) = none)
    (hk : ClassName.key name ∉ s.chain) (hc : cb.index.find? name = some c)
    (h : Returns (build c) (s.enter (ClassName.key name)) (.ok doc) t) :
    Returns (cb.recallOr build name) s (.ok (some doc)) (t.leave.remember (ClassName.key name) doc) := by
  have hw := returns_within h
  unfold Returns at hw ⊢
  rw [run_recallOr, hd]
  simp only [if_neg hk, hc, hw, Option.bind_some]

end Codebase

end ApiPages
