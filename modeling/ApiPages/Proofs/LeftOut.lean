import ApiPages.Proofs.Correspondence
import ApiPages.Proofs.IndexHistory
import ApiPages.Proofs.MemberList

/-! # A class that is left out

An index without the class of a key (`ClassIndex.leaveOut`) is what one gets by inserting only the other classes
(`leaveOut_insertAll`), and it lists the other names (`documentable_leaveOut`).  If the class is not built in and no
other class names it as parent or interface, the other classes are documented as before (`document_leaveOut`).

Of the files, only those are read that hold the sources of classes (`document_congr_files`). -/

namespace ApiPages

namespace ClassIndex

variable {ix : ClassIndex} {c : ClassDecl} {k name : Text}

/-! ### The index -/

theorem eq_of_classes_eq {ix ix' : ClassIndex} (h : ix.classes = ix'.classes) : ix = ix' := by
  cases ix
  cases ix'
  cases h
  rfl

/-- The index without the class of a key. -/
def leaveOut (ix : ClassIndex) (k : Text) : ClassIndex :=
  ⟨without ix.classes k, (List.filter_sublist.map _).nodup ix.distinct⟩

theorem mem_without {classes : List ClassDecl} : c ∈ without classes k ↔ c ∈ classes ∧ c.key ≠ k := by
  rw [without, List.mem_filter, bne_iff_ne]

theorem mem_leaveOut : c ∈ (ix.leaveOut k).classes ↔ c ∈ ix.classes ∧ c.key ≠ k :=
  mem_without

theorem leaveOut_eq_self (h : k ∉ ix.keys) : ix.leaveOut k = ix := by
  refine eq_of_classes_eq (List.filter_eq_self.mpr fun c hc => ?_)
  rw [bne_iff_ne]
  rintro rfl
  exact h (List.mem_map_of_mem hc)

theorem leaveOut_insert_of_key (h : c.key = k) : (ix.insert c).leaveOut k = ix.leaveOut k := by
  refine eq_of_classes_eq ?_
  simp [leaveOut, insert, without, h]

theorem leaveOut_insert_of_ne (h : c.key ≠ k) : (ix.insert c).leaveOut k = (ix.leaveOut k).insert c := by
  refine eq_of_classes_eq ?_
  simp [leaveOut, insert, without, h, Bool.and_comm]

/-- The class of a key may be left out before the others are inserted. -/
theorem leaveOut_insertAll (ix : ClassIndex) (k : Text) (cs : List ClassDecl) :
    (ix.insertAll cs).leaveOut k = (ix.leaveOut k).insertAll (without cs k) := by
  induction cs generalizing ix with
  | nil => rfl
  | cons c cs ih =>
      have hcons : ix.insertAll (c :: cs) = (ix.insert c).insertAll cs := rfl
      by_cases hk : c.key = k
      · have hothers : without (c :: cs) k = without cs k := List.filter_cons_of_neg (by simp [hk])
        rw [hcons, ih, leaveOut_insert_of_key hk, hothers]
      · have hothers : without (c :: cs) k = c :: without cs k := List.filter_cons_of_pos (by simpa using hk)
        rw [hcons, ih, leaveOut_insert_of_ne hk, hothers]
        rfl

theorem find?_leaveOut_of_ne (h : ClassName.key name ≠ k) : (ix.leaveOut k).find? name = ix.find? name :=
  find?_without_of_ne ix.classes h

theorem find?_leaveOut_of_key (h : ClassName.key name = k) : (ix.leaveOut k).find? name = none := by
  refine find?_eq_none_iff.mpr fun hmem => ?_
  obtain ⟨c, hc, hkey⟩ := List.mem_map.mp hmem
  exact (mem_leaveOut.mp hc).2 (hkey.trans h)

theorem isBuiltin_leaveOut (h : ∀ c ∈ ix.classes, c.key = k → c.isBuiltin = false) (name : Text) :
    (ix.leaveOut k).isBuiltin name = ix.isBuiltin name := by
  unfold isBuiltin
  by_cases hk : ClassName.key name = k
  · rw [find?_leaveOut_of_key hk]
    cases hf : ix.find? name with
    | none => rfl
    | some c => rw [Option.any_none, Option.any_some, h c (mem_of_find? hf) ((key_eq_of_find? hf).trans hk)]
  · rw [find?_leaveOut_of_ne hk]

/-- The other names are listed as before. -/
theorem documentable_leaveOut (ix : ClassIndex) (k : Text) :
    (ix.leaveOut k).documentable = ix.documentable.filter (ClassName.key · != k) := by
  have hlisted : ((ClassName.key · != k) ∘ listedName) = fun c => c.key != k := by
    funext c
    rw [Function.comp_apply, key_listedName]
  have hnames : ((ix.leaveOut k).classes.filter fun c => !c.isBuiltin).map listedName =
      ((ix.classes.filter fun c => !c.isBuiltin).map listedName).filter (ClassName.key · != k) := by
    have hothers : (ix.leaveOut k).classes = ix.classes.filter (·.key != k) := rfl
    rw [List.filter_map, hlisted, hothers, List.filter_filter, List.filter_filter]
    congr 2
    funext c
    exact Bool.and_comm _ _
  change (((ix.leaveOut k).classes.filter fun c => !c.isBuiltin).map listedName).mergeSort Text.le = _
  rw [hnames, mergeSort_filter Text.le_trans Text.le_total]
  rfl

/-- A listed name belongs to a known class that is not built in. -/
theorem exists_of_mem_documentable (h : name ∈ ix.documentable) :
    ∃ c ∈ ix.classes, c.isBuiltin = false ∧ name = listedName c := by
  rw [documentable, List.mem_mergeSort] at h
  obtain ⟨c, hc, rfl⟩ := List.mem_map.mp h
  obtain ⟨hmem, hbuiltin⟩ := List.mem_filter.mp hc
  exact ⟨c, hmem, by simpa using hbuiltin, rfl⟩

theorem listedName_mem_documentable (hc : c ∈ ix.classes) (hbuiltin : c.isBuiltin = false) :
    listedName c ∈ ix.documentable := by
  rw [documentable, List.mem_mergeSort]
  exact List.mem_map_of_mem (f := listedName) (List.mem_filter.mpr ⟨hc, by rw [hbuiltin]; rfl⟩)

end ClassIndex

/-! ### The other classes -/

namespace Codebase

variable {ix : ClassIndex} {files files' : FileTree} {k name : Text} {keep : MethodDecl → Bool}

/-- Every other class stands for itself. -/
def leaveOutCorrespondence (files : FileTree) (hbuiltin : ∀ c ∈ ix.classes, c.key = k → c.isBuiltin = false)
    (hothers : ∀ c ∈ ix.classes, c.key ≠ k →
      ∀ n, c.parentName? = some n ∨ n ∈ c.interfaceNames → ClassName.key n ≠ k) :
    Correspondence ⟨ix, files⟩ ⟨ix.leaveOut k, files⟩ where
  names n n' := n = n' ∧ ClassName.key n ≠ k
  classes c c' := c = c' ∧ c ∈ ix.classes ∧ c.key ≠ k
  methods := (· = ·)
  files := rfl
  isBuiltin := ClassIndex.isBuiltin_leaveOut hbuiltin
  key_eq hn := by rw [hn.1]
  display := by
    rintro n _ ⟨rfl, hn⟩
    exact ⟨rfl, by rwa [ClassName.key_display]⟩
  find? := by
    rintro n _ ⟨rfl, hn⟩
    change Option.Rel _ (ix.find? n) ((ix.leaveOut k).find? n)
    rw [ClassIndex.find?_leaveOut_of_ne hn]
    cases hf : ix.find? n with
    | none => exact .none
    | some c => exact .some ⟨rfl, ClassIndex.mem_of_find? hf, ClassIndex.key_eq_of_find? hf ▸ hn⟩
  body := by
    rintro c _ ⟨rfl, _⟩
    rfl
  parent := by
    rintro c _ ⟨rfl, hc, hk⟩
    cases hp : c.parentName? with
    | none => exact .none
    | some n => exact .some ⟨rfl, hothers c hc hk n (.inl hp)⟩
  interfaces := by
    rintro c _ ⟨rfl, hc, hk⟩
    rw [List.forall₂_same]
    exact fun n hn => ⟨rfl, hothers c hc hk n (.inr hn)⟩
  memberwise := by
    rintro c _ ⟨rfl, _⟩
    rw [List.forall₂_same]
    exact fun _ _ => rfl
  origin := MethodDecl.SameButOrigin.of_eq

/-- The other classes are documented as before, or fail for the same reason. -/
theorem document_leaveOut (hbuiltin : ∀ c ∈ ix.classes, c.key = k → c.isBuiltin = false)
    (hothers : ∀ c ∈ ix.classes, c.key ≠ k →
      ∀ n, c.parentName? = some n ∨ n ∈ c.interfaceNames → ClassName.key n ≠ k)
    (hname : ClassName.key name ≠ k) : document ⟨ix.leaveOut k, files⟩ keep name = document ⟨ix, files⟩ keep name := by
  let C := leaveOutCorrespondence files hbuiltin hothers
  have hkeep : ∀ d d', C.methods d d' → keep d' = keep d := by
    rintro d _ rfl
    rfl
  have halike := C.rel_document hkeep (⟨rfl, hname⟩ : C.names name name)
  exact (halike.eq fun _ _ hn => hn.1).symm

/-! ### The files that are read -/

section Files

variable (h : ∀ c ∈ ix.classes, importsOf ⟨ix, files'⟩ c = importsOf ⟨ix, files⟩ c)

include h

theorem buildClass_congr_files {c : ClassDecl} (hc : c ∈ ix.classes)
    (ask : Text → Except DocError (Option ClassDoc)) :
    buildClass ⟨ix, files'⟩ ask keep c = buildClass ⟨ix, files⟩ ask keep c := by
  have hmethod : buildMethod ⟨ix, files'⟩ ask c = buildMethod ⟨ix, files⟩ ask c := by
    funext d
    simp only [buildMethod, describe, h c hc]
    rfl
  rw [buildClass, buildClass, hmethod]

theorem resolve_congr_files (chain : List Text) (name : Text) :
    resolve ⟨ix, files'⟩ chain name = resolve ⟨ix, files⟩ chain name := by
  induction chain, name using resolve.induct ⟨ix, files⟩ with
  | case1 chain n hk => rw [resolve_cycle hk, resolve_cycle hk]
  | case2 chain n hk hf =>
      have hf' : (⟨ix, files'⟩ : Codebase).index.find? n = none := hf
      rw [resolve_unknown hk hf', resolve_unknown hk hf]
  | case3 chain n hk c hf ih =>
      have hf' : (⟨ix, files'⟩ : Codebase).index.find? n = some c := hf
      rw [resolve_known hk hf', resolve_known hk hf, buildClass_congr_files h (ClassIndex.mem_of_find? hf),
        funext ih]

/-- What is read of the files are the imports of the known classes. -/
theorem document_congr_files (name : Text) :
    document ⟨ix, files'⟩ keep name = document ⟨ix, files⟩ keep name := by
  have hresolve : ∀ chain, resolve ⟨ix, files'⟩ chain = resolve ⟨ix, files⟩ chain := fun chain =>
    funext (resolve_congr_files h chain)
  unfold document
  cases hf : ix.find? name with
  | none => rfl
  | some c => simp only [hresolve, buildClass_congr_files h (ClassIndex.mem_of_find? hf)]

end Files

end Codebase

end ApiPages
