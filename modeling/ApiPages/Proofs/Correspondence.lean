import ApiPages.Proofs.ClassName
import ApiPages.Proofs.Memory

/-! # Two codebases that correspond

To compare how a class is documented in two codebases, one says which names stand for the same, which classes
are taken for the same, and which methods (`Correspondence`).  The conditions are about single declarations:
classes that correspond have the same content and name corresponding parents and interfaces, and corresponding
names are both unknown or find corresponding classes.

The walks to the ancestors and interfaces then go through corresponding names, every question is answered
alike, and so is every request (`Correspondence.rel_document`): both codebases give the class with the same
methods, or both fail for the same reason. -/

namespace ApiPages

open SessionM

/-! ### Optional values -/

section

variable {α β : Type} {r : α → β → Prop}

theorem eq_none_of_rel_none {b? : Option β} (h : Option.Rel r none b?) : b? = none := by
  cases h
  rfl

theorem exists_of_rel_some {a : α} {b? : Option β} (h : Option.Rel r (some a) b?) :
    ∃ b, b? = some b ∧ r a b := by
  cases h with
  | some h => exact ⟨_, rfl, h⟩

theorem eq_of_rel {r : α → α → Prop} (hr : ∀ a b, r a b → a = b) {a? b? : Option α}
    (h : Option.Rel r a? b?) : a? = b? := by
  cases h with
  | none => rfl
  | some h => rw [hr _ _ h]

end

/-! ### Answers that are alike -/

/-- Both answers are successes that `R` relates, or both are failures that `E` relates. -/
inductive Alike {α β : Type} (E : DocError → DocError → Prop) (R : α → β → Prop) :
    Except DocError α → Except DocError β → Prop
  | ok {a : α} {b : β} : R a b → Alike E R (.ok a) (.ok b)
  | error {e e' : DocError} : E e e' → Alike E R (.error e) (.error e')

namespace Alike

variable {α β γ δ : Type} {E : DocError → DocError → Prop} {R : α → β → Prop} {S : γ → δ → Prop}

theorem bind {x : Except DocError α} {y : Except DocError β} {f : α → Except DocError γ}
    {g : β → Except DocError δ} (h : Alike E R x y) (hfg : ∀ a b, R a b → Alike E S (f a) (g b)) :
    Alike E S (x >>= f) (y >>= g) := by
  cases h with
  | ok h => exact hfg _ _ h
  | error h => exact .error h

theorem map {x : Except DocError α} {y : Except DocError β} {f : α → γ} {g : β → δ} (h : Alike E R x y)
    (hfg : ∀ a b, R a b → S (f a) (g b)) : Alike E S (f <$> x) (g <$> y) := by
  cases h with
  | ok h => exact .ok (hfg _ _ h)
  | error h => exact .error h

theorem mapM {as : List γ} {bs : List δ} {f : γ → Except DocError α} {g : δ → Except DocError β}
    (h : List.Forall₂ S as bs) (hfg : ∀ a b, S a b → Alike E R (f a) (g b)) :
    Alike E (List.Forall₂ R) (as.mapM f) (bs.mapM g) := by
  induction h with
  | nil => exact .ok .nil
  | cons hab _ ih =>
      rw [List.mapM_cons, List.mapM_cons]
      refine (hfg _ _ hab).bind fun a b hr => ?_
      refine ih.bind fun as bs hrs => ?_
      exact .ok (.cons hr hrs)

end Alike

/-- Failures for the same reason: a method misses its donor, or a class that is named alike is on a cycle or
unknown. -/
inductive DocError.Like (names : Text → Text → Prop) : DocError → DocError → Prop
  | noDonor (className method : Text) : Like names (.noDonor className method) (.noDonor className method)
  | cycle {n n' : Text} : names n n' → Like names (.cycle n) (.cycle n')
  | unknownClass {n n' : Text} : names n n' → Like names (.unknownClass n) (.unknownClass n')

/-- The same documentation, in which parent and interfaces are named alike. -/
structure ClassDoc.Like (names : Text → Text → Prop) (doc doc' : ClassDoc) : Prop where
  eq : doc' = { doc with parent := doc'.parent, interfaces := doc'.interfaces }
  parent : Option.Rel names doc.parent doc'.parent
  interfaces : List.Forall₂ names doc.interfaces doc'.interfaces

theorem ClassDoc.Like.methods {names : Text → Text → Prop} {doc doc' : ClassDoc} (h : doc.Like names doc') :
    doc'.methods = doc.methods := by
  rw [h.eq]

/-- Answers in which names are written alike. -/
abbrev AnswersAlike (names : Text → Text → Prop) :
    Except DocError ClassDoc → Except DocError ClassDoc → Prop :=
  Alike (DocError.Like names) (ClassDoc.Like names)

/-- Where only equal names are alike, answers are equal. -/
theorem AnswersAlike.eq {names : Text → Text → Prop} (hn : ∀ n n', names n n' → n = n')
    {r r' : Except DocError ClassDoc} (h : AnswersAlike names r r') : r = r' := by
  cases h with
  | @ok doc doc' h =>
      have hparent : doc.parent = doc'.parent := eq_of_rel hn h.parent
      have hinterfaces : doc.interfaces = doc'.interfaces :=
        List.forall₂_eq_eq_eq ▸ h.interfaces.imp hn
      rw [h.eq, ← hparent, ← hinterfaces]
  | error h =>
      cases h with
      | noDonor => rfl
      | cycle h => rw [hn _ _ h]
      | unknownClass h => rw [hn _ _ h]

/-! ### Declarations with the same content -/

/-- Declarations of a class that differ at most in parent, interfaces and methods. -/
def ClassDecl.SameBody (c c' : ClassDecl) : Prop :=
  c' = { c with parent := c'.parent, interfaces := c'.interfaces, methods := c'.methods }

/-- Declarations of a method that differ at most in the class that is said to declare it. -/
def MethodDecl.SameButOrigin (d d' : MethodDecl) : Prop :=
  d' = { d with declaringClass := d'.declaringClass }

section Content

variable {cb cb' : Codebase} {c c' : ClassDecl} {d d' : MethodDecl}

theorem ClassDecl.SameBody.exists_eq (h : c.SameBody c') :
    ∃ parent interfaces methods, c' = { c with parent, interfaces, methods } :=
  ⟨_, _, _, h⟩

theorem ClassDecl.SameBody.name_eq (h : c.SameBody c') : c'.name = c.name := by
  rw [h]

theorem ClassDecl.SameBody.key_eq (h : c.SameBody c') : c'.key = c.key := by
  rw [key, h.name_eq, ← key]

theorem MethodDecl.SameButOrigin.of_eq (h : d = d') : d.SameButOrigin d' := by
  subst h
  rfl

theorem MethodDecl.SameButOrigin.exists_eq (h : d.SameButOrigin d') :
    ∃ origin, d' = { d with declaringClass := origin } :=
  ⟨_, h⟩

/-- A class is the one of a name exactly if their keys are the same. -/
theorem ClassDoc.isNamed_ofName (className name : Text) :
    (ClassDoc.ofName className).isNamed name = (ClassName.key name == ClassName.key className) := by
  rw [isNamed, ofName, Text.sameLetters, ClassName.lower_display, ClassName.lower_display,
    List.cons_beq_cons, beq_self_eq_true, Bool.true_and]

/-- What the comment of a method says depends on the name of its class only. -/
theorem MethodDecl.SameButOrigin.read_eq (hd : d.SameButOrigin d') (hc : c.SameBody c') :
    d'.read c' = d.read c := by
  obtain ⟨_, rfl⟩ := hd.exists_eq
  rw [read, hc.name_eq, ← read]
  rfl

theorem ClassIndex.isBuiltinCandidate_congr {ix ix' : ClassIndex}
    (h : ∀ name, ix'.isBuiltin name = ix.isBuiltin name) :
    ix'.isBuiltinCandidate = ix.isBuiltinCandidate := by
  funext candidate
  rw [isBuiltinCandidate, h, ← isBuiltinCandidate]

/-- A method is documented by its own comment alike in two codebases that have the same files and know the same
built-in classes. -/
theorem describe_congr (hfiles : cb'.files = cb.files)
    (hbuiltin : ∀ name, cb'.index.isBuiltin name = cb.index.isBuiltin name) (hc : c.SameBody c')
    (hd : d.SameButOrigin d') : cb'.describe c' d' = cb.describe c d := by
  have hread := hd.read_eq hc
  have hcandidate := ClassIndex.isBuiltinCandidate_congr hbuiltin
  have htype : cb'.index.isBuiltinType = cb.index.isBuiltinType := by
    funext type
    simp only [ClassIndex.isBuiltinType, hcandidate]
  have himports : cb'.importsOf c' = cb.importsOf c := by
    obtain ⟨_, _, _, rfl⟩ := hc.exists_eq
    simp only [Codebase.importsOf, Codebase.sourceText, hfiles]
  have hparam : cb'.describeParam c' = cb.describeParam c := by
    funext comment p
    simp only [Codebase.describeParam, hc.name_eq, hcandidate]
  obtain ⟨_, rfl⟩ := hd.exists_eq
  simp only [Codebase.describe, hread, htype, himports, hparam, hc.name_eq]
  rfl

/-- Classes of the same content are shown alike, except for parent and interfaces. -/
theorem classHeader_congr (hc : c.SameBody c') :
    classHeader c' =
      { classHeader c with parent := c'.parentName?, interfaces := c'.interfaceNames } := by
  obtain ⟨_, _, _, rfl⟩ := hc.exists_eq
  simp only [classHeader, ClassDecl.namespaceName]

end Content

/-! ### Correspondences -/

/-- Which names, classes and methods of two codebases stand for the same. -/
structure Correspondence (cb cb' : Codebase) where
  names : Text → Text → Prop
  classes : ClassDecl → ClassDecl → Prop
  methods : MethodDecl → MethodDecl → Prop
  files : cb'.files = cb.files
  isBuiltin : ∀ name, cb'.index.isBuiltin name = cb.index.isBuiltin name
  /-- Names that correspond have the same key. -/
  key_eq : ∀ {n n'}, names n n' → ClassName.key n' = ClassName.key n
  display : ∀ {n n'}, names n n' → names (ClassName.display n) (ClassName.display n')
  /-- Names that correspond are both unknown, or they find classes that correspond. -/
  find? : ∀ {n n'}, names n n' → Option.Rel classes (cb.index.find? n) (cb'.index.find? n')
  body : ∀ {c c'}, classes c c' → c.SameBody c'
  parent : ∀ {c c'}, classes c c' → Option.Rel names c.parentName? c'.parentName?
  interfaces : ∀ {c c'}, classes c c' → List.Forall₂ names c.interfaceNames c'.interfaceNames
  /-- Classes that correspond have corresponding members. -/
  memberwise : ∀ {c c'}, classes c c' → List.Forall₂ methods (members keepAll c) (members keepAll c')
  origin : ∀ {d d'}, methods d d' → d.SameButOrigin d'

namespace Correspondence

variable {cb cb' : Codebase} (C : Correspondence cb cb') {c c' : ClassDecl} {d d' : MethodDecl}
  {visited : List Text}

/-- Failures in the two codebases. -/
abbrev errors : DocError → DocError → Prop :=
  DocError.Like C.names

/-- Answers in the two codebases to the question for another class. -/
abbrev answers : Except DocError (Option ClassDoc) → Except DocError (Option ClassDoc) → Prop :=
  Alike C.errors (Option.Rel (ClassDoc.Like C.names))

theorem unknown {n n' : Text} (hn : C.names n n') (hf : cb.index.find? n = none) :
    cb'.index.find? n' = none :=
  eq_none_of_rel_none (hf ▸ C.find? hn)

theorem known {n n' : Text} (hn : C.names n n') (hf : cb.index.find? n = some c) :
    ∃ c', cb'.index.find? n' = some c' ∧ C.classes c c' :=
  exists_of_rel_some (hf ▸ C.find? hn)

theorem root (h : C.classes c c') (hp : c.parentName? = none) : c'.parentName? = none :=
  eq_none_of_rel_none (hp ▸ C.parent h)

theorem child {n : Text} (h : C.classes c c') (hp : c.parentName? = some n) :
    ∃ n', c'.parentName? = some n' ∧ C.names n n' :=
  exists_of_rel_some (hp ▸ C.parent h)

/-! ### Walks -/

/-- Walks along the parents in the two codebases. -/
structure AncestryLike (a a' : Ancestry) : Prop where
  ancestors : List.Forall₂ (fun p p' => C.names p.1 p'.1 ∧ C.classes p.2 p'.2) a.ancestors a'.ancestors
  loop : Option.Rel C.names a.loop a'.loop

theorem rel_ancestryFrom (h : C.classes c c') :
    C.AncestryLike (cb.index.ancestryFrom visited c) (cb'.index.ancestryFrom visited c') := by
  induction visited, c using ClassIndex.ancestryFrom.induct cb.index generalizing c' with
  | case1 visited c hp =>
      rw [ClassIndex.ancestryFrom_root hp, ClassIndex.ancestryFrom_root (C.root h hp)]
      exact ⟨.nil, .none⟩
  | case2 visited c n hp hv =>
      obtain ⟨n', hp', hn⟩ := C.child h hp
      rw [ClassIndex.ancestryFrom_loop hp hv, ClassIndex.ancestryFrom_loop hp' (C.key_eq hn ▸ hv)]
      exact ⟨.nil, .some hn⟩
  | case3 visited c n hp hv hf =>
      obtain ⟨n', hp', hn⟩ := C.child h hp
      rw [ClassIndex.ancestryFrom_unknown hp hv hf,
        ClassIndex.ancestryFrom_unknown hp' (C.key_eq hn ▸ hv) (C.unknown hn hf)]
      exact ⟨.nil, .none⟩
  | case4 visited c n hp hv p hf ih =>
      obtain ⟨n', hp', hn⟩ := C.child h hp
      obtain ⟨p', hf', hpp⟩ := C.known hn hf
      have hrest := ih hpp
      rw [ClassIndex.ancestryFrom_known hp hv hf,
        ClassIndex.ancestryFrom_known hp' (C.key_eq hn ▸ hv) hf', C.key_eq hn]
      exact ⟨.cons ⟨hn, hpp⟩ hrest.ancestors, hrest.loop⟩

theorem rel_ancestry (h : C.classes c c') : C.AncestryLike (cb.index.ancestry c) (cb'.index.ancestry c') := by
  rw [ClassIndex.ancestry, ClassIndex.ancestry, (C.body h).key_eq]
  exact C.rel_ancestryFrom h

theorem rel_interfacesFrom {queue queue' : List Text} (h : List.Forall₂ C.names queue queue') :
    List.Forall₂ C.names (cb.index.interfacesFrom visited queue)
      (cb'.index.interfacesFrom visited queue') := by
  induction visited, queue using ClassIndex.interfacesFrom.induct cb.index generalizing queue' with
  | case1 visited =>
      cases h
      rw [ClassIndex.interfacesFrom_nil, ClassIndex.interfacesFrom_nil]
      exact .nil
  | case2 visited n queue hv ih =>
      obtain ⟨n', rest, hn, hrest, rfl⟩ := List.forall₂_cons_left_iff.mp h
      rw [ClassIndex.interfacesFrom_visited hv, ClassIndex.interfacesFrom_visited (C.key_eq hn ▸ hv)]
      exact ih hrest
  | case3 visited n queue hv hf ih =>
      obtain ⟨n', rest, hn, hrest, rfl⟩ := List.forall₂_cons_left_iff.mp h
      rw [ClassIndex.interfacesFrom_unknown hf, ClassIndex.interfacesFrom_unknown (C.unknown hn hf)]
      exact ih hrest
  | case4 visited n queue hv p hf ih =>
      obtain ⟨n', rest, hn, hrest, rfl⟩ := List.forall₂_cons_left_iff.mp h
      obtain ⟨p', hf', hpp⟩ := C.known hn hf
      rw [ClassIndex.interfacesFrom_known hv hf,
        ClassIndex.interfacesFrom_known (C.key_eq hn ▸ hv) hf', C.key_eq hn]
      exact .cons hn (ih (List.rel_append hrest (C.interfaces hpp)))

theorem rel_interfaceOrder (h : C.classes c c') :
    List.Forall₂ C.names (cb.index.interfaceOrder c) (cb'.index.interfaceOrder c') := by
  refine C.rel_interfacesFrom (List.rel_append (C.interfaces h) ?_)
  refine List.rel_flatMap (C.rel_ancestry h).ancestors ?_
  intro p p' hp
  exact C.interfaces hp.2

theorem rel_ancestryNames (h : C.classes c c') :
    List.Forall₂ C.names (cb.index.ancestry c).names (cb'.index.ancestry c').names := by
  refine List.rel_map ?_ (C.rel_ancestry h).ancestors
  intro p p' hp
  exact hp.1

/-! ### Questions and requests -/

section Ask

variable {ask ask' : Text → Except DocError (Option ClassDoc)} {keep keep' : MethodDecl → Bool}
  (hask : ∀ n n', C.names n n' → C.answers (ask n) (ask' n'))

include hask

theorem rel_firstDonor (method : Text) {ns ns' : List Text} (h : List.Forall₂ C.names ns ns') :
    Alike C.errors (· = ·) (firstDonor ask method ns) (firstDonor ask' method ns') := by
  induction h with
  | nil => exact .ok rfl
  | cons hn _ ih =>
      unfold firstDonor
      refine (hask _ _ hn).bind fun doc? doc'? hdoc => ?_
      have hmethod : doc'?.bind (·.method? method) = doc?.bind (·.method? method) := by
        cases hdoc with
        | none => rfl
        | some hdoc => simp only [Option.bind_some, ClassDoc.method?, hdoc.methods]
      rw [hmethod]
      cases doc?.bind (·.method? method) with
      | some found => exact .ok rfl
      | none => exact ih

theorem rel_findDonor (h : C.classes c c') (method : Text) :
    Alike C.errors (· = ·) (findDonor cb.index ask c method) (findDonor cb'.index ask' c' method) := by
  unfold findDonor
  refine (C.rel_firstDonor hask method (C.rel_ancestryNames h)).bind ?_
  rintro found? _ rfl
  cases found? with
  | some found => exact .ok rfl
  | none =>
      cases hl : (cb.index.ancestry c).loop with
      | none =>
          have hloop := (C.rel_ancestry h).loop
          rw [hl] at hloop
          rw [eq_none_of_rel_none hloop]
          exact C.rel_firstDonor hask method (C.rel_interfaceOrder h)
      | some n =>
          have hloop := (C.rel_ancestry h).loop
          rw [hl] at hloop
          obtain ⟨n', hl', hn⟩ := exists_of_rel_some hloop
          rw [hl']
          exact .error (.cycle hn)

theorem rel_buildMethod (h : C.classes c c') (hd : C.methods d d') :
    Alike C.errors (· = ·) (buildMethod cb ask c d) (buildMethod cb' ask' c' d') := by
  have hdescribe := describe_congr C.files C.isBuiltin (C.body h) (C.origin hd)
  have hread := (C.origin hd).read_eq (C.body h)
  have hinherits : d'.inheritsDoc c' = d.inheritsDoc c := by
    rw [MethodDecl.inheritsDoc, hread, ← MethodDecl.inheritsDoc]
  unfold buildMethod
  rw [hinherits, hdescribe]
  cases d.inheritsDoc c with
  | false => exact .ok rfl
  | true =>
      have hname : d'.name = d.name := by rw [C.origin hd]
      have hadopt : adopt c' d' = adopt c d := by
        obtain ⟨_, _, _, rfl⟩ := (C.body h).exists_eq
        obtain ⟨_, rfl⟩ := (C.origin hd).exists_eq
        rfl
      simp only [if_true, inherit, hname, hadopt, (C.body h).name_eq]
      refine (C.rel_findDonor hask h d.name).bind ?_
      rintro found? _ rfl
      cases found? with
      | some found => exact .ok rfl
      | none => exact .error (.noDonor _ _)

theorem rel_buildClass (h : C.classes c c') (hkeep : ∀ d d', C.methods d d' → keep' d' = keep d) :
    AnswersAlike C.names (buildClass cb ask keep c) (buildClass cb' ask' keep' c') := by
  have hmembers : List.Forall₂ C.methods (members keep c) (members keep' c') := by
    rw [members_eq_filter_keepAll keep, members_eq_filter_keepAll keep']
    refine List.rel_filter ?_ (C.memberwise h)
    intro d d' hd
    simp only [hkeep d d' hd]
  unfold buildClass
  refine (Alike.mapM hmembers fun d d' hd => C.rel_buildMethod hask h hd).bind ?_
  intro fs fs' hfs
  obtain rfl : fs = fs' := List.forall₂_eq_eq_eq ▸ hfs
  rw [classHeader_congr (C.body h)]
  exact .ok ⟨rfl, C.parent h, C.interfaces h⟩

end Ask

theorem rel_resolve {chain : List Text} {n n' : Text} (h : C.names n n') :
    C.answers (cb.resolve chain n) (cb'.resolve chain n') := by
  induction chain, n using Codebase.resolve.induct cb generalizing n' with
  | case1 chain n hk =>
      rw [Codebase.resolve_cycle hk, Codebase.resolve_cycle (C.key_eq h ▸ hk)]
      exact .error (.cycle (C.display h))
  | case2 chain n hk hf =>
      rw [Codebase.resolve_unknown hk hf,
        Codebase.resolve_unknown (C.key_eq h ▸ hk) (C.unknown h hf)]
      exact .ok .none
  | case3 chain n hk c hf ih =>
      obtain ⟨c', hf', hcc⟩ := C.known h hf
      rw [Codebase.resolve_known hk hf, Codebase.resolve_known (C.key_eq h ▸ hk) hf', C.key_eq h]
      refine (C.rel_buildClass (fun m m' hm => ih m hm) hcc fun _ _ _ => rfl).map ?_
      exact fun _ _ hdoc => .some hdoc

variable {keep keep' : MethodDecl → Bool} {name name' : Text}

theorem rel_document (hkeep : ∀ d d', C.methods d d' → keep' d' = keep d) (h : C.names name name') :
    AnswersAlike C.names (cb.document keep name) (cb'.document keep' name') := by
  cases hf : cb.index.find? name with
  | none =>
      rw [Codebase.document_unknown hf, Codebase.document_unknown (C.unknown h hf)]
      exact .error (.unknownClass (C.display h))
  | some c =>
      obtain ⟨c', hf', hcc⟩ := C.known h hf
      rw [Codebase.document_known hf, Codebase.document_known hf', (C.body hcc).key_eq]
      exact C.rel_buildClass (fun _ _ hn => C.rel_resolve hn) hcc hkeep

/-- **Corresponding requests are answered alike**, if the same methods are chosen, whatever the two sessions
remember. -/
theorem rel_documentM {s t : Session} (hs : cb.Reached s) (hschain : s.chain = []) (ht : cb'.Reached t)
    (htchain : t.chain = []) (hkeep : ∀ d d', C.methods d d' → keep' d' = keep d)
    (h : C.names name name') :
    ∃ r r' s' t', Returns (cb.documentM keep name) s r s' ∧ Returns (cb'.documentM keep' name') t r' t' ∧
      AnswersAlike C.names r r' := by
  obtain ⟨s', hr, _⟩ := Codebase.documentM_eq_document keep name hs.valid hschain
  obtain ⟨t', hr', _⟩ := Codebase.documentM_eq_document keep' name' ht.valid htchain
  exact ⟨_, _, s', t', hr, hr', C.rel_document hkeep h⟩

/-- Where every name and every method stands for itself, a request is answered by the same page or by the same
error. -/
theorem eq_documentM {s t : Session} (hnames : ∀ n n', C.names n n' → n = n')
    (hmethods : ∀ d d', C.methods d d' → d = d') (hs : cb.Reached s) (hschain : s.chain = [])
    (ht : cb'.Reached t) (htchain : t.chain = []) (keep : MethodDecl → Bool) (h : C.names name name) :
    ∃ r s' t', Returns (cb.documentM keep name) s r s' ∧ Returns (cb'.documentM keep name) t r t' := by
  have hkeep : ∀ d d', C.methods d d' → keep d' = keep d := by
    intro d d' hd
    rw [hmethods d d' hd]
  obtain ⟨r, r', s', t', hr, hr', halike⟩ := C.rel_documentM hs hschain ht htchain hkeep h
  obtain rfl : r = r' := halike.eq hnames
  exact ⟨r, s', t', hr, hr'⟩

end Correspondence

/-! ### Indexes compared class by class -/

/-- Two indexes know the same keys, and the classes of each key are related. -/
def ClassIndex.Matched (R : ClassDecl → ClassDecl → Prop) (ix ix' : ClassIndex) : Prop :=
  ∀ name, Option.Rel R (ix.find? name) (ix'.find? name)

namespace ClassIndex

variable {R : ClassDecl → ClassDecl → Prop} {ix ix' : ClassIndex}

theorem matched_of_forall₂ (hR : ∀ c c', R c c' → c.SameBody c')
    (h : List.Forall₂ R ix.classes ix'.classes) : Matched R ix ix' := by
  intro name
  unfold find?
  generalize ix.classes = cs at h ⊢
  generalize ix'.classes = cs' at h ⊢
  induction h with
  | nil => exact .none
  | @cons c c' _ _ hc _ ih =>
      have hkey := (hR c c' hc).key_eq
      rw [List.find?_cons, List.find?_cons, hkey]
      cases c.key == ClassName.key name with
      | true => exact .some hc
      | false => exact ih

/-- Classes of the same content are built in in both indexes or in none. -/
theorem Matched.isBuiltin_eq (h : Matched R ix ix') (hR : ∀ c c', R c c' → c.SameBody c') (name : Text) :
    ix'.isBuiltin name = ix.isBuiltin name := by
  have hrel := h name
  unfold isBuiltin
  generalize ix.find? name = c? at hrel ⊢
  generalize ix'.find? name = c'? at hrel ⊢
  cases hrel with
  | none => rfl
  | some h => rw [Option.any_some, Option.any_some, hR _ _ h]

end ClassIndex

end ApiPages
