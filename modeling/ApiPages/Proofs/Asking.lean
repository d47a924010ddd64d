import Mathlib.Data.List.Forall2
import ApiPages.Documenter.Build

/-! # One class, asked for in two ways

How a class is documented depends on the other classes only through the function `ask`, and it is the same
in every monad.  So two ways of asking that are related (`Simulation`) document every class in related
ways (`rel_buildClass`).

The first use of this is `buildClass_mono`: where one way of asking answers, another that gives the same
answers documents the same class. -/

namespace ApiPages

/-- A relation between the computations of two monads that sequencing and failing respect. -/
structure Simulation (m n : Type → Type) [Monad m] [MonadExceptOf DocError m] [Monad n]
    [MonadExceptOf DocError n] where
  rel : {α : Type} → m α → n α → Prop
  rel_pure : ∀ {α : Type} (a : α), rel (pure a) (pure a)
  rel_throw : ∀ {α : Type} (e : DocError), rel (throw e : m α) (throw e)
  rel_bind : ∀ {α β : Type} {x : m α} {y : n α} {f : α → m β} {g : α → n β},
    rel x y → (∀ a, rel (f a) (g a)) → rel (x >>= f) (y >>= g)

namespace Simulation

variable {m n : Type → Type} [Monad m] [MonadExceptOf DocError m] [Monad n]
  [MonadExceptOf DocError n] (S : Simulation m n)
  {ask : Text → m (Option ClassDoc)} {ask' : Text → n (Option ClassDoc)}

theorem rel_firstDonor (h : ∀ name, S.rel (ask name) (ask' name)) (method : Text)
    (names : List Text) : S.rel (firstDonor ask method names) (firstDonor ask' method names) := by
  induction names with
  | nil => exact S.rel_pure none
  | cons name names ih =>
      unfold firstDonor
      apply S.rel_bind (h name)
      intro doc
      cases doc.bind (·.method? method) with
      | some found => exact S.rel_pure (some found)
      | none => exact ih

theorem rel_findDonor (h : ∀ name, S.rel (ask name) (ask' name)) (ix : ClassIndex) (c : ClassDecl)
    (method : Text) : S.rel (findDonor ix ask c method) (findDonor ix ask' c method) := by
  unfold findDonor
  apply S.rel_bind (S.rel_firstDonor h method _)
  intro found
  cases found with
  | some found => exact S.rel_pure (some found)
  | none =>
      cases (ix.ancestry c).loop with
      | some name => exact S.rel_throw (.cycle name)
      | none => exact S.rel_firstDonor h method _

theorem rel_inherit (h : ∀ name, S.rel (ask name) (ask' name)) (ix : ClassIndex) (c : ClassDecl)
    (d : MethodDecl) : S.rel (inherit ix ask c d) (inherit ix ask' c d) := by
  unfold inherit
  apply S.rel_bind (S.rel_findDonor h ix c d.name)
  intro found
  cases found with
  | some found => exact S.rel_pure (adopt c d found)
  | none => exact S.rel_throw (.noDonor (ClassName.display c.name) d.name)

theorem rel_buildMethod (h : ∀ name, S.rel (ask name) (ask' name)) (cb : Codebase) (c : ClassDecl)
    (d : MethodDecl) : S.rel (buildMethod cb ask c d) (buildMethod cb ask' c d) := by
  unfold buildMethod
  cases d.inheritsDoc c with
  | true => exact S.rel_inherit h cb.index c d
  | false => exact S.rel_pure (cb.describe c d)

theorem rel_mapM [LawfulMonad m] [LawfulMonad n] {α β : Type} {f : α → m β} {g : α → n β}
    (h : ∀ a, S.rel (f a) (g a)) (as : List α) : S.rel (as.mapM f) (as.mapM g) := by
  induction as with
  | nil =>
      rw [List.mapM_nil, List.mapM_nil]
      exact S.rel_pure []
  | cons a as ih =>
      rw [List.mapM_cons, List.mapM_cons]
      refine S.rel_bind (h a) fun b => ?_
      refine S.rel_bind ih fun bs => ?_
      exact S.rel_pure (b :: bs)

theorem rel_buildClass [LawfulMonad m] [LawfulMonad n]
    (h : ∀ name, S.rel (ask name) (ask' name)) (cb : Codebase) (keep : MethodDecl → Bool)
    (c : ClassDecl) : S.rel (buildClass cb ask keep c) (buildClass cb ask' keep c) := by
  unfold buildClass
  refine S.rel_bind (S.rel_mapM (S.rel_buildMethod h cb c) _) fun methods => ?_
  exact S.rel_pure _

/-- The second computation succeeds where the first does, with the same result. -/
def refines : Simulation (Except DocError) (Except DocError) where
  rel x y := ∀ a, x = .ok a → y = .ok a
  rel_pure _ _ h := h
  rel_throw _ _ h := h
  rel_bind {_ _ x y f g} hxy hfg b hb := by
    cases hx : x with
    | error e => rw [hx] at hb; cases hb
    | ok a =>
        rw [hx] at hb
        rw [hxy a hx]
        exact hfg a b hb

end Simulation

variable {cb : Codebase} {ask ask' : Text → Except DocError (Option ClassDoc)}
  {keep : MethodDecl → Bool} {c : ClassDecl}

theorem buildClass_mono (h : ∀ name doc?, ask name = .ok doc? → ask' name = .ok doc?)
    {doc : ClassDoc} (hd : buildClass cb ask keep c = .ok doc) :
    buildClass cb ask' keep c = .ok doc :=
  Simulation.refines.rel_buildClass h cb keep c doc hd

/-! ### The first donor -/

theorem firstDonor_cons_ok {method name : Text} {names : List Text} {doc? : Option ClassDoc}
    (h : ask name = .ok doc?) :
    firstDonor ask method (name :: names) =
      match doc?.bind (·.method? method) with
      | some found => .ok (some found)
      | none => firstDonor ask method names := by
  rw [firstDonor, h]
  rfl

theorem firstDonor_cons_error {method name : Text} {names : List Text} {e : DocError}
    (h : ask name = .error e) : firstDonor ask method (name :: names) = .error e := by
  rw [firstDonor, h]
  rfl

/-- No donor is found if all classes answer and none has the method. -/
theorem firstDonor_eq_none_iff {method : Text} {names : List Text} :
    firstDonor ask method names = .ok none ↔
      ∀ name ∈ names, ∃ doc?, ask name = .ok doc? ∧ doc?.bind (·.method? method) = none := by
  induction names with
  | nil => exact ⟨fun _ => List.forall_mem_nil _, fun _ => rfl⟩
  | cons name names ih =>
      rw [List.forall_mem_cons]
      cases ha : ask name with
      | error e =>
          rw [firstDonor_cons_error ha]
          constructor
          · intro h; cases h
          · rintro ⟨⟨doc?, h, _⟩, _⟩; cases h
      | ok doc? =>
          rw [firstDonor_cons_ok ha]
          cases hm : doc?.bind (·.method? method) with
          | some found =>
              constructor
              · intro h; cases h
              · rintro ⟨⟨doc', h, hn⟩, _⟩
                cases h
                rw [hm] at hn
                cases hn
          | none =>
              rw [← ih]
              exact ⟨fun h => ⟨⟨doc?, rfl, hm⟩, h⟩, fun h => h.2⟩

/-- The donor is the first class that has the method; the classes before it answer and do not have
it. -/
theorem firstDonor_eq_some_iff {method : Text} {names : List Text} {found : MethodDoc} :
    firstDonor ask method names = .ok (some found) ↔
      ∃ before name after doc, names = before ++ name :: after ∧
        (∀ n ∈ before, ∃ doc?, ask n = .ok doc? ∧ doc?.bind (·.method? method) = none) ∧
        ask name = .ok (some doc) ∧ doc.method? method = some found := by
  induction names with
  | nil =>
      constructor
      · intro h; cases h
      · rintro ⟨before, name, after, doc, h, _⟩
        cases before <;> cases h
  | cons name names ih =>
      constructor
      · intro h
        cases ha : ask name with
        | error e => rw [firstDonor_cons_error ha] at h; cases h
        | ok doc? =>
            rw [firstDonor_cons_ok ha] at h
            cases hm : doc?.bind (·.method? method) with
            | some f =>
                rw [hm] at h
                cases h
                obtain ⟨doc, rfl, hd⟩ := Option.bind_eq_some_iff.mp hm
                exact ⟨[], name, names, doc, rfl, List.forall_mem_nil _, ha, hd⟩
            | none =>
                rw [hm] at h
                obtain ⟨before, n, after, doc, rfl, hb, hn, hd⟩ := ih.mp h
                refine ⟨name :: before, n, after, doc, rfl, ?_, hn, hd⟩
                exact List.forall_mem_cons.mpr ⟨⟨doc?, ha, hm⟩, hb⟩
      · rintro ⟨before, n, after, doc, hnames, hb, hn, hd⟩
        cases before with
        | nil =>
            obtain ⟨rfl, rfl⟩ := List.cons.inj hnames
            rw [firstDonor_cons_ok hn, Option.bind_some, hd]
        | cons b before =>
            obtain ⟨rfl, rfl⟩ := List.cons.inj hnames
            obtain ⟨⟨doc?, ha, hm⟩, hb⟩ := List.forall_mem_cons.mp hb
            rw [firstDonor_cons_ok ha, hm]
            exact ih.mpr ⟨before, n, after, doc, rfl, hb, hn, hd⟩

/-- A donor that is found is the first of the ancestors and then of the interfaces. -/
theorem firstDonor_of_findDonor {method : Text} {found : MethodDoc}
    (h : findDonor cb.index ask c method = .ok (some found)) :
    firstDonor ask method ((cb.index.ancestry c).names ++ cb.index.interfaceOrder c) =
      .ok (some found) := by
  unfold findDonor at h
  cases ha : firstDonor ask method (cb.index.ancestry c).names with
  | error e => rw [ha] at h; cases h
  | ok donor? =>
      rw [ha] at h
      cases donor? with
      | some g =>
          cases h
          obtain ⟨before, name, after, doc, hn, hrest⟩ := firstDonor_eq_some_iff.mp ha
          refine firstDonor_eq_some_iff.mpr ⟨before, name, after ++ cb.index.interfaceOrder c, doc, ?_, hrest⟩
          rw [hn, List.append_assoc, List.cons_append]
      | none =>
          cases hl : (cb.index.ancestry c).loop with
          | some name => simp only [hl] at h; cases h
          | none =>
              simp only [hl] at h
              have hnone := firstDonor_eq_none_iff.mp ha
              obtain ⟨before, name, after, doc, hn, hb, hrest⟩ := firstDonor_eq_some_iff.mp h
              refine firstDonor_eq_some_iff.mpr
                ⟨(cb.index.ancestry c).names ++ before, name, after, doc, ?_, ?_, hrest⟩
              · rw [hn, List.append_assoc]
              · exact List.forall_mem_append.mpr ⟨hnone, hb⟩

/-- A method that inherits its documentation adopts that of the donor. -/
theorem buildMethod_inherits {d : MethodDecl} {doc : MethodDoc} (hd : d.inheritsDoc c = true)
    (h : buildMethod cb ask c d = .ok doc) :
    ∃ found, findDonor cb.index ask c d.name = .ok (some found) ∧ doc = adopt c d found := by
  rw [buildMethod, if_pos hd, inherit] at h
  cases hf : findDonor cb.index ask c d.name with
  | error e => rw [hf] at h; cases h
  | ok found? =>
      rw [hf] at h
      cases found? with
      | none => cases h
      | some found => exact ⟨found, rfl, (Except.ok.inj h).symm⟩

theorem adopt_name (c : ClassDecl) (d : MethodDecl) (found : MethodDoc) :
    (adopt c d found).name = found.name := by
  unfold adopt
  split <;> rfl

theorem adopt_access (c : ClassDecl) (d : MethodDecl) (found : MethodDoc) :
    (adopt c d found).access = found.access := by
  unfold adopt
  split <;> rfl

/-! ### The methods of a class -/

theorem mapM_eq_ok_iff {α β ε : Type} {f : α → Except ε β} {as : List α} {bs : List β} :
    as.mapM f = .ok bs ↔ List.Forall₂ (fun a b => f a = .ok b) as bs := by
  induction as generalizing bs with
  | nil =>
      rw [List.mapM_nil, List.forall₂_nil_left_iff]
      exact ⟨fun h => (Except.ok.inj h).symm, fun h => h ▸ rfl⟩
  | cons a as ih =>
      rw [List.mapM_cons, List.forall₂_cons_left_iff]
      constructor
      · intro h
        cases ha : f a with
        | error e => rw [ha] at h; cases h
        | ok b =>
            cases has : as.mapM f with
            | error e => rw [ha, has] at h; cases h
            | ok bs' =>
                rw [ha, has] at h
                exact ⟨b, bs', rfl, ih.mp has, (Except.ok.inj h).symm⟩
      · rintro ⟨b, bs', ha, has, rfl⟩
        rw [ha, ih.mpr has]
        rfl

theorem exists_of_mem_mapM {α β ε : Type} {f : α → Except ε β} {as : List α} {bs : List β}
    (h : as.mapM f = .ok bs) {b : β} (hb : b ∈ bs) : ∃ a ∈ as, f a = .ok b := by
  rw [mapM_eq_ok_iff] at h
  induction h with
  | nil => cases hb
  | cons ha _ ih =>
      rcases List.mem_cons.mp hb with rfl | hb
      · exact ⟨_, List.mem_cons_self, ha⟩
      · obtain ⟨a, has, hfa⟩ := ih hb
        exact ⟨a, List.mem_cons_of_mem _ has, hfa⟩

theorem exists_mem_of_mapM {α β ε : Type} {f : α → Except ε β} {as : List α} {bs : List β}
    (h : as.mapM f = .ok bs) {a : α} (ha : a ∈ as) : ∃ b ∈ bs, f a = .ok b := by
  rw [mapM_eq_ok_iff] at h
  induction h with
  | nil => cases ha
  | cons hab _ ih =>
      rcases List.mem_cons.mp ha with rfl | ha
      · exact ⟨_, List.mem_cons_self, hab⟩
      · obtain ⟨b, hb, hf⟩ := ih ha
        exact ⟨b, List.mem_cons_of_mem _ hb, hf⟩

/-- A class is documented exactly if each of its methods is. -/
theorem buildClass_eq_ok_iff {doc : ClassDoc} :
    buildClass cb ask keep c = .ok doc ↔
      ∃ methods, List.Forall₂ (fun d m => buildMethod cb ask c d = .ok m) (members keep c) methods ∧
        doc = { classHeader c with methods := arrange methods } := by
  unfold buildClass
  constructor
  · intro h
    cases hm : (members keep c).mapM (buildMethod cb ask c) with
    | error e => rw [hm] at h; cases h
    | ok methods =>
        rw [hm] at h
        exact ⟨methods, mapM_eq_ok_iff.mp hm, (Except.ok.inj h).symm⟩
  · rintro ⟨methods, hm, rfl⟩
    rw [mapM_eq_ok_iff.mpr hm]
    rfl

theorem exists_mapM_eq_ok_iff {α β ε : Type} {f : α → Except ε β} {as : List α} :
    (∃ bs, as.mapM f = .ok bs) ↔ ∀ a ∈ as, ∃ b, f a = .ok b := by
  simp only [mapM_eq_ok_iff]
  induction as with
  | nil => exact ⟨fun _ => List.forall_mem_nil _, fun _ => ⟨[], .nil⟩⟩
  | cons a as ih =>
      rw [List.forall_mem_cons, ← ih]
      constructor
      · rintro ⟨_, h⟩
        obtain ⟨b, bs, ha, has, _⟩ := List.forall₂_cons_left_iff.mp h
        exact ⟨⟨b, ha⟩, bs, has⟩
      · rintro ⟨⟨b, ha⟩, bs, has⟩
        exact ⟨b :: bs, .cons ha has⟩

/-- Nothing is lost or repeated when what is public and what is protected are sorted apart. -/
theorem mergeSort_groups_perm {α : Type} (access : α → Access) (le : α → α → Bool) (items : List α) :
    ((items.filter (access · = .pub)).mergeSort le ++
      (items.filter (access · = .prot)).mergeSort le).Perm items := by
  have hprot : (items.filter fun a => access a = .prot) =
      items.filter fun a => !decide (access a = .pub) := by
    apply List.filter_congr
    intro a _
    cases access a <;> rfl
  refine ((List.mergeSort_perm _ _).append (List.mergeSort_perm _ _)).trans ?_
  rw [hprot]
  exact List.filter_append_perm _ items

/-- Methods are arranged without losing or repeating any. -/
theorem arrange_perm (methods : List MethodDoc) : (arrange methods).Perm methods :=
  mergeSort_groups_perm MethodDoc.access MethodDoc.nameLe methods

/-- Each method of a documented class is the documentation of one of its members. -/
theorem exists_member_of_buildClass {doc : ClassDoc} (h : buildClass cb ask keep c = .ok doc)
    {m : MethodDoc} (hm : m ∈ doc.methods) :
    ∃ d ∈ members keep c, buildMethod cb ask c d = .ok m := by
  obtain ⟨methods, hall, rfl⟩ := buildClass_eq_ok_iff.mp h
  exact exists_of_mem_mapM (mapM_eq_ok_iff.mpr hall) ((arrange_perm methods).mem_iff.mp hm)

/-- A method that a class documents: it is not private, not ignored, and declared by the class itself. -/
structure MethodDecl.BelongsTo (d : MethodDecl) (c : ClassDecl) : Prop where
  mem : d ∈ c.methods
  visible : d.visibility ≠ .priv
  notIgnored : (d.read c).ignored = false
  declared : ∀ name, d.declaringClass = some name → (ClassDoc.ofName c.name).isNamed name = true

theorem mem_members_iff {d : MethodDecl} : d ∈ members keep c ↔ keep d = true ∧ d.BelongsTo c := by
  unfold members
  simp only [List.mem_filter, Bool.and_eq_true, MethodDecl.isExcluded, Bool.not_eq_true',
    Bool.or_eq_false_iff, decide_eq_false_iff_not, Option.any_eq_false]
  constructor
  · rintro ⟨hmem, hkeep, ⟨hi, hv⟩, hn⟩
    refine ⟨hkeep, hmem, hv, hi, ?_⟩
    intro name hname
    simpa using hn name hname
  · rintro ⟨hkeep, h⟩
    refine ⟨h.mem, hkeep, ⟨h.notIgnored, h.visible⟩, ?_⟩
    intro name hname
    rw [h.declared name hname]
    rfl

theorem members_eq_filter_keepAll (keep : MethodDecl → Bool) (c : ClassDecl) :
    members keep c = (members keepAll c).filter keep := by
  simp only [members, keepAll, List.filter_filter, Bool.true_and]

theorem members_subset (keep : MethodDecl → Bool) (c : ClassDecl) :
    ∀ d ∈ members keep c, d ∈ members keepAll c := by
  intro d hd
  exact mem_members_iff.mpr ⟨rfl, (mem_members_iff.mp hd).2⟩

/-- A class that can be documented with all its methods can be documented with some of them. -/
theorem exists_buildClass_of_keepAll (keep : MethodDecl → Bool) {doc : ClassDoc}
    (h : buildClass cb ask keepAll c = .ok doc) : ∃ doc', buildClass cb ask keep c = .ok doc' := by
  obtain ⟨methods, hm, _⟩ := buildClass_eq_ok_iff.mp h
  have hall := exists_mapM_eq_ok_iff.mp ⟨methods, mapM_eq_ok_iff.mpr hm⟩
  obtain ⟨kept, hk⟩ := exists_mapM_eq_ok_iff.mpr fun d hd => hall d (members_subset keep c d hd)
  exact ⟨_, buildClass_eq_ok_iff.mpr ⟨kept, mapM_eq_ok_iff.mp hk, rfl⟩⟩

end ApiPages
