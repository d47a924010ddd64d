import ApiPages.Proofs.Reach

/-! # Why a class cannot be documented

A class that asks others for their documentation fails in one of three ways (`Fault`): no class has a method that
it inherits, its parents come back, or a class that it asks fails.  Questions are asked inside of questions, and
a failure is passed on unchanged.  So every failure of a request began in a class that is being documented for
the requested one (`Codebase.Nesting`), and `Codebase.Failure` says how (`failure_of_document`). -/

namespace ApiPages

open SessionM

/-- A class whose documentation is asked for when a method of `c` is inherited: an ancestor, or an interface if
the parents of `c` do not come back. -/
def ClassIndex.Asks (ix : ClassIndex) (c : ClassDecl) (name : Text) : Prop :=
  name ∈ (ix.ancestry c).names ∨ (ix.ancestry c).loop = none ∧ name ∈ ix.interfaceOrder c

theorem ClassIndex.Asks.mem_searchOrder {ix : ClassIndex} {c : ClassDecl} {name : Text}
    (h : ix.Asks c name) : name ∈ ix.searchOrder c := by
  rw [searchOrder_eq, List.mem_append]
  exact h.imp_right And.right

/-! ### One class -/

section Ask

variable {cb : Codebase} {ask : Text → Except DocError (Option ClassDoc)} {keep : MethodDecl → Bool}
  {c : ClassDecl} {method : Text} {e : DocError}

theorem exists_of_mapM_eq_error {α β ε : Type} {f : α → Except ε β} {as : List α} {e : ε}
    (h : as.mapM f = .error e) : ∃ a ∈ as, f a = .error e := by
  induction as with
  | nil => cases h
  | cons a as ih =>
      rw [List.mapM_cons] at h
      cases ha : f a with
      | error e' =>
          rw [ha] at h
          cases h
          exact ⟨a, List.mem_cons_self, ha⟩
      | ok b =>
          cases has : as.mapM f with
          | ok bs => rw [ha, has] at h; cases h
          | error e' =>
              rw [ha, has] at h
              cases h
              obtain ⟨a', ha', hf⟩ := ih has
              exact ⟨a', List.mem_cons_of_mem a ha', hf⟩

theorem exists_of_firstDonor_eq_error {names : List Text} (h : firstDonor ask method names = .error e) :
    ∃ name ∈ names, ask name = .error e := by
  induction names with
  | nil => cases h
  | cons name names ih =>
      cases ha : ask name with
      | error e' =>
          rw [firstDonor_cons_error ha] at h
          cases h
          exact ⟨name, List.mem_cons_self, ha⟩
      | ok doc? =>
          rw [firstDonor_cons_ok ha] at h
          cases hm : doc?.bind (·.method? method) with
          | some found => rw [hm] at h; cases h
          | none =>
              rw [hm] at h
              obtain ⟨n, hn, hask⟩ := ih h
              exact ⟨n, List.mem_cons_of_mem name hn, hask⟩

/-- A search that fails was answered by a failure, or the parents of the class come back. -/
theorem findDonor_eq_error (h : findDonor cb.index ask c method = .error e) :
    (∃ name, cb.index.Asks c name ∧ ask name = .error e) ∨
      ∃ name, (cb.index.ancestry c).loop = some name ∧ e = .cycle name := by
  unfold findDonor at h
  cases ha : firstDonor ask method (cb.index.ancestry c).names with
  | error e' =>
      rw [ha] at h
      cases h
      obtain ⟨name, hn, hask⟩ := exists_of_firstDonor_eq_error ha
      exact .inl ⟨name, .inl hn, hask⟩
  | ok donor? =>
      rw [ha] at h
      cases donor? with
      | some found => cases h
      | none =>
          cases hl : (cb.index.ancestry c).loop with
          | some name =>
              simp only [hl] at h
              cases h
              exact .inr ⟨name, rfl, rfl⟩
          | none =>
              simp only [hl] at h
              obtain ⟨name, hn, hask⟩ := exists_of_firstDonor_eq_error h
              exact .inl ⟨name, .inr ⟨hl, hn⟩, hask⟩

/-- A search that finds nothing was answered by all classes of the search order. -/
theorem findDonor_eq_none (h : findDonor cb.index ask c method = .ok none) :
    (cb.index.ancestry c).loop = none ∧ ∀ name ∈ cb.index.searchOrder c,
      ∃ doc?, ask name = .ok doc? ∧ doc?.bind (·.method? method) = none := by
  unfold findDonor at h
  cases ha : firstDonor ask method (cb.index.ancestry c).names with
  | error e => rw [ha] at h; cases h
  | ok donor? =>
      rw [ha] at h
      cases donor? with
      | some found => cases h
      | none =>
          cases hl : (cb.index.ancestry c).loop with
          | some name => simp only [hl] at h; cases h
          | none =>
              simp only [hl] at h
              refine ⟨rfl, ?_⟩
              rw [ClassIndex.searchOrder_eq, List.forall_mem_append]
              exact ⟨firstDonor_eq_none_iff.mp ha, firstDonor_eq_none_iff.mp h⟩

/-- How a class fails that asks other classes. -/
inductive Fault (cb : Codebase) (ask : Text → Except DocError (Option ClassDoc))
    (keep : MethodDecl → Bool) (c : ClassDecl) : DocError → Prop
  /-- No class has a method that inherits its documentation. -/
  | noDonor {d : MethodDecl} : d ∈ members keep c → d.inheritsDoc c = true →
      findDonor cb.index ask c d.name = .ok none →
      Fault cb ask keep c (.noDonor (ClassName.display c.name) d.name)
  /-- The parents of the class come back. -/
  | loop {name : Text} : (cb.index.ancestry c).loop = some name → Fault cb ask keep c (.cycle name)
  /-- A class that is asked fails. -/
  | asked {name : Text} {e : DocError} : cb.index.Asks c name → ask name = .error e →
      Fault cb ask keep c e

theorem fault_of_buildMethod {d : MethodDecl} (hd : d ∈ members keep c)
    (h : buildMethod cb ask c d = .error e) : Fault cb ask keep c e := by
  unfold buildMethod at h
  cases hi : d.inheritsDoc c with
  | false => rw [hi] at h; cases h
  | true =>
      rw [hi, if_pos rfl, inherit] at h
      cases hf : findDonor cb.index ask c d.name with
      | error e' =>
          rw [hf] at h
          cases h
          rcases findDonor_eq_error hf with ⟨name, ha, hask⟩ | ⟨name, hl, rfl⟩
          · exact .asked ha hask
          · exact .loop hl
      | ok found? =>
          rw [hf] at h
          cases found? with
          | some found => cases h
          | none =>
              cases h
              exact .noDonor hd hi hf

theorem fault_of_buildClass (h : buildClass cb ask keep c = .error e) : Fault cb ask keep c e := by
  unfold buildClass at h
  cases hm : (members keep c).mapM (buildMethod cb ask c) with
  | ok methods => rw [hm] at h; cases h
  | error e' =>
      rw [hm] at h
      cases h
      obtain ⟨d, hd, hb⟩ := exists_of_mapM_eq_error hm
      exact fault_of_buildMethod hd hb

end Ask

/-! ### Questions inside of questions -/

namespace Codebase

variable {cb : Codebase} {root c p : ClassDecl} {chain : List Text} {name : Text} {e : DocError}
  {keep : MethodDecl → Bool}

theorem buildClass_of_resolve (hf : cb.index.find? name = some c) {doc? : Option ClassDoc}
    (h : cb.resolve chain name = .ok doc?) :
    ∃ doc, doc? = some doc ∧
      buildClass cb (cb.resolve (ClassName.key name :: chain)) keepAll c = .ok doc := by
  by_cases hk : ClassName.key name ∈ chain
  · rw [resolve_cycle hk] at h
    cases h
  · rw [resolve_known hk hf] at h
    cases hb : buildClass cb (cb.resolve (ClassName.key name :: chain)) keepAll c with
    | error e => rw [hb] at h; cases h
    | ok doc =>
        rw [hb] at h
        cases h
        exact ⟨doc, rfl, rfl⟩

theorem buildClass_of_resolve_error (hk : ClassName.key name ∉ chain)
    (hf : cb.index.find? name = some c) (h : cb.resolve chain name = .error e) :
    buildClass cb (cb.resolve (ClassName.key name :: chain)) keepAll c = .error e := by
  rw [resolve_known hk hf] at h
  cases hb : buildClass cb (cb.resolve (ClassName.key name :: chain)) keepAll c with
  | error e' => rw [hb] at h; cases h; rfl
  | ok doc => rw [hb] at h; cases h

/-- The class `c` is being documented for `root`: the chain holds the keys of the classes that are being
documented, each of which asked for the one before it. -/
inductive Nesting (cb : Codebase) (root : ClassDecl) : List Text → ClassDecl → Prop
  | root : Nesting cb root [root.key] root
  | ask {chain : List Text} {c p : ClassDecl} {name : Text} :
      Nesting cb root chain c → cb.index.Asks c name → ClassName.key name ∉ chain →
      cb.index.find? name = some p → Nesting cb root (ClassName.key name :: chain) p

theorem Nesting.root_mem (h : cb.Nesting root chain c) : root.key ∈ chain := by
  induction h with
  | root => exact List.mem_singleton_self _
  | ask _ _ _ _ ih => exact List.mem_cons_of_mem _ ih

theorem Nesting.reaches (h : cb.Nesting root chain c) : cb.index.Reaches root c := by
  induction h with
  | root => exact .refl
  | ask _ ha _ hf ih =>
      exact ih.trans (ClassIndex.leadsTo_of_mem_searchOrder ha.mem_searchOrder hf).to_reflTransGen

/-- Where the failure of a request began. -/
inductive Failure (cb : Codebase) (keep : MethodDecl → Bool) (root : ClassDecl) : DocError → Prop
  | noDonor {chain : List Text} {c : ClassDecl} {d : MethodDecl} :
      cb.Nesting root chain c → d ∈ members keepAll c → (c = root → keep d = true) →
      d.inheritsDoc c = true → findDonor cb.index (cb.resolve chain) c d.name = .ok none →
      Failure cb keep root (.noDonor (ClassName.display c.name) d.name)
  | loop {chain : List Text} {c : ClassDecl} {name : Text} :
      cb.Nesting root chain c → (cb.index.ancestry c).loop = some name →
      Failure cb keep root (.cycle name)
  /-- A class asks for one that is being documented. -/
  | back {chain : List Text} {c : ClassDecl} {name : Text} :
      cb.Nesting root chain c → cb.index.Asks c name → ClassName.key name ∈ chain →
      Failure cb keep root (.cycle (ClassName.display name))

theorem failure_of_resolve (hn : cb.Nesting root chain c) (ha : cb.index.Asks c name)
    (h : cb.resolve chain name = .error e) : cb.Failure keep root e := by
  induction chain, name using resolve.induct cb generalizing c with
  | case1 chain name hk =>
      rw [resolve_cycle hk] at h
      cases h
      exact .back hn ha hk
  | case2 chain name hk hf =>
      rw [resolve_unknown hk hf] at h
      cases h
  | case3 chain name hk p hf ih =>
      have hnest := hn.ask ha hk hf
      -- the requested class is on the chain already, so this is another one
      have hne : p ≠ root := by
        rintro rfl
        exact hk (ClassIndex.key_eq_of_find? hf ▸ hn.root_mem)
      cases fault_of_buildClass (buildClass_of_resolve_error hk hf h) with
      | noDonor hd hi hf => exact .noDonor hnest hd (fun hr => absurd hr hne) hi hf
      | loop hl => exact .loop hnest hl
      | asked ha' hask => exact ih _ hnest ha' hask

/-- **Every failure of a request began in one class**, which is being documented for the requested one. -/
theorem failure_of_document (hf : cb.index.find? name = some root)
    (h : cb.document keep name = .error e) : cb.Failure keep root e := by
  rw [document_known hf] at h
  cases fault_of_buildClass h with
  | noDonor hd hi hf =>
      exact .noDonor .root (members_subset keep root _ hd) (fun _ => (mem_members_iff.mp hd).1) hi hf
  | loop hl => exact .loop .root hl
  | asked ha hask => exact failure_of_resolve .root ha hask

theorem Reached.document_eq {s s' : Session} {r : Except DocError ClassDoc} (hs : cb.Reached s)
    (hchain : s.chain = []) (h : Returns (cb.documentM keep name) s r s') : cb.document keep name = r := by
  obtain ⟨t, ht, _⟩ := documentM_eq_document keep name hs.valid hchain
  exact (ht.unique h).1

theorem Reached.exists_buildClass {s s' : Session} {doc : ClassDoc} (hs : cb.Reached s)
    (hchain : s.chain = []) (h : Returns (cb.documentM keep name) s (.ok doc) s') :
    ∃ c, cb.index.find? name = some c ∧ buildClass cb (cb.resolve [c.key]) keep c = .ok doc := by
  have hd := hs.document_eq hchain h
  cases hf : cb.index.find? name with
  | none =>
      rw [document_unknown hf] at hd
      cases hd
  | some c =>
      rw [document_known hf] at hd
      exact ⟨c, rfl, hd⟩

/-- A request that fails does not know the class of that name, or the failure began in one class. -/
theorem Reached.exists_failure {s s' : Session} (hs : cb.Reached s) (hchain : s.chain = [])
    (h : Returns (cb.documentM keep name) s (.error e) s') :
    e = .unknownClass (ClassName.display name) ∨
      ∃ c, cb.index.find? name = some c ∧ cb.Failure keep c e := by
  have hd := hs.document_eq hchain h
  cases hf : cb.index.find? name with
  | none =>
      rw [document_unknown hf] at hd
      exact .inl (Except.error.inj hd).symm
  | some c => exact .inr ⟨c, rfl, failure_of_document hf hd⟩

end Codebase

end ApiPages
