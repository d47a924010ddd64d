import ApiPages.Proofs.Correspondence
import ApiPages.Proofs.Provenance

/-! # What a page does not depend on

Two changes of a codebase that no request shows.  Methods that are never documented may be removed from any
class (`Reached.discarded_methods_irrelevant`): they are no members, so neither their comments nor their names are
looked at.  And a class may be added to which the requested one does not lead
(`Reached.unrelated_class_irrelevant`): the index is asked for it only in order to see whether a type is a built-in
class, which it is not. -/

namespace ApiPages

open SessionM

/-! ### Methods that are never documented -/

/-- A method that is never documented: it is private, its comment says so, or another class declares it. -/
def MethodDecl.Discarded (d : MethodDecl) (c : ClassDecl) : Prop :=
  d.visibility = .priv ∨ (d.read c).ignored = true ∨
    ∃ name, d.declaringClass = some name ∧ ClassName.key name ≠ c.key

/-- Some methods of the class `c` are removed, all of which are never documented. -/
inductive ClassDecl.Removes (c : ClassDecl) : List MethodDecl → List MethodDecl → Prop
  | nil : Removes c [] []
  | keep {ds ds' : List MethodDecl} (d : MethodDecl) : Removes c ds ds' → Removes c (d :: ds) (d :: ds')
  | remove {ds ds' : List MethodDecl} {d : MethodDecl} :
      d.Discarded c → Removes c ds ds' → Removes c (d :: ds) ds'

/-- The same class, without some methods that are never documented. -/
structure ClassDecl.Prunes (c c' : ClassDecl) : Prop where
  eq : c' = { c with methods := c'.methods }
  methods : c.Removes c.methods c'.methods

section Discarded

variable {c c' : ClassDecl} {d : MethodDecl} {ds ds' : List MethodDecl}

theorem MethodDecl.isExcluded_iff : d.isExcluded c = true ↔ d.Discarded c := by
  have horigin : (d.declaringClass.any fun n => !(ClassDoc.ofName c.name).isNamed n) = true ↔
      ∃ name, d.declaringClass = some name ∧ ClassName.key name ≠ c.key := by
    rw [Option.any_eq_true]
    simp only [ClassDoc.isNamed_ofName, Bool.not_eq_true', beq_eq_false_iff_ne, ClassDecl.key]
  rw [isExcluded, Bool.or_eq_true, Bool.or_eq_true, decide_eq_true_iff, horigin, Discarded, or_assoc, or_left_comm]

theorem MethodDecl.isExcluded_congr (h : c'.name = c.name) : d.isExcluded c' = d.isExcluded c := by
  simp only [isExcluded, read, h]

/-- What is removed is no member. -/
theorem ClassDecl.Removes.filter_eq (h : c.Removes ds ds') :
    ds'.filter (fun d => !d.isExcluded c) = ds.filter (fun d => !d.isExcluded c) := by
  induction h with
  | nil => rfl
  | keep d _ ih => rw [List.filter_cons, List.filter_cons, ih]
  | remove hd _ ih =>
      have hexcluded := MethodDecl.isExcluded_iff.mpr hd
      rw [ih, List.filter_cons_of_neg (by simp [hexcluded])]

theorem ClassDecl.Prunes.sameBody (h : c.Prunes c') : c.SameBody c' := by
  have heq := h.eq
  rw [SameBody, heq]

theorem ClassDecl.Prunes.members_eq (h : c.Prunes c') : members keepAll c' = members keepAll c := by
  have hname := h.sameBody.name_eq
  simp only [members, keepAll, Bool.true_and, MethodDecl.isExcluded_congr hname]
  exact h.methods.filter_eq

end Discarded

namespace Codebase

variable {cb cb' : Codebase} {s t : Session}

/-- The same code, without some methods that are never documented. -/
structure Prunes (cb cb' : Codebase) : Prop where
  files : cb'.files = cb.files
  index : ClassIndex.Matched ClassDecl.Prunes cb.index cb'.index

/-- Every name and every member stands for itself. -/
def Prunes.correspondence (h : cb.Prunes cb') : Correspondence cb cb' where
  names := (· = ·)
  classes := ClassDecl.Prunes
  methods := (· = ·)
  files := h.files
  isBuiltin := h.index.isBuiltin_eq fun _ _ => ClassDecl.Prunes.sameBody
  key_eq hn := by rw [hn]
  display hn := by rw [hn]
  find? := by
    rintro n _ rfl
    exact h.index n
  body := ClassDecl.Prunes.sameBody
  parent {c c'} hc := by
    have hparent : c'.parentName? = c.parentName? := by rw [hc.eq]; rfl
    rw [hparent]
    cases c.parentName? with
    | none => exact .none
    | some n => exact .some rfl
  interfaces {c c'} hc := by
    have hinterfaces : c'.interfaceNames = c.interfaceNames := by rw [hc.eq]; rfl
    rw [hinterfaces, List.forall₂_same]
    exact fun _ _ => rfl
  memberwise hc := by
    rw [hc.members_eq, List.forall₂_same]
    exact fun _ _ => rfl
  origin := MethodDecl.SameButOrigin.of_eq

/-- **Methods that are never documented have no influence at all.**  They may be removed from any class, be it
the requested one, an ancestor or an interface: every request is answered by the same page or by the same
error. -/
theorem Reached.discarded_methods_irrelevant (h : cb.Prunes cb') (hs : cb.Reached s) (hschain : s.chain = [])
    (ht : cb'.Reached t) (htchain : t.chain = []) (keep : MethodDecl → Bool) (name : Text) :
    ∃ r s' t', Returns (cb.documentM keep name) s r s' ∧ Returns (cb'.documentM keep name) t r t' := by
  have hname : h.correspondence.names name name := rfl
  have hnames : ∀ n n', h.correspondence.names n n' → n = n' := fun _ _ hn => hn
  have hmethods : ∀ d d', h.correspondence.methods d d' → d = d' := fun _ _ hd => hd
  exact h.correspondence.eq_documentM hnames hmethods hs hschain ht htchain keep hname

/-! ### A printer with methods that nobody sees -/

namespace Printer

def reset : MethodDecl := inheriting "reset"

/-- The method that it inherits from. -/
def deviceReset : MethodDecl :=
  { name := "Reset", comment := some "/** Resets. */", returnType := some (.named "Handle") }

/-- An ignored method that would inherit what nobody documents. -/
def feed : MethodDecl := { name := "feed", comment := some "/** @ignore \x7b@inheritDoc\x7d */" }

/-- A private method that would be found first. -/
def ownReset : MethodDecl := { name := "reset", visibility := .priv, comment := some "/** Hidden. */" }

/-- A method of another class that would inherit what nobody documents. -/
def openDevice : MethodDecl :=
  { inheriting "open" with declaringClass := some "Handle" }

def printer : ClassDecl := { name := "Printer", parent := some "Device", methods := [feed, reset] }

def device : ClassDecl := { name := "Device", methods := [ownReset, deviceReset, openDevice] }

/-- The two classes without what they discard. -/
def pruned : List ClassDecl :=
  [{ printer with methods := [reset] }, { device with methods := [deviceReset] }]

end Printer

open Printer

def printers : Codebase :=
  ⟨⟨[printer, device], by decide⟩, ⟨fun _ => .error .missing⟩⟩

def prunedPrinters : Codebase :=
  ⟨⟨pruned, by decide⟩, ⟨fun _ => .error .missing⟩⟩

theorem printers_prunes : printers.Prunes prunedPrinters where
  files := rfl
  index := by
    have hfeed : feed.Discarded printer := .inr (.inl (by decide +kernel))
    have hown : ownReset.Discarded device := .inl rfl
    have hopen : openDevice.Discarded device := .inr (.inr ⟨"Handle".toList, rfl, by decide +kernel⟩)
    refine ClassIndex.matched_of_forall₂ (fun _ _ => ClassDecl.Prunes.sameBody) (.cons ?_ (.cons ?_ .nil))
    · exact ⟨rfl, .remove hfeed (.keep _ .nil)⟩
    · exact ⟨rfl, .remove hown (.keep _ (.remove hopen .nil))⟩

/-- Both codebases give the class with its one method. -/
theorem printers_discarded_methods_irrelevant :
    ∃ doc s' t', printers.Prunes prunedPrinters ∧ printers.Reached {} ∧ prunedPrinters.Reached {} ∧
      Returns (printers.documentM keepAll "Printer") {} (.ok doc) s' ∧
      Returns (prunedPrinters.documentM keepAll "Printer") {} (.ok doc) t' ∧
      doc.methods.map (fun f => (f.name, f.description)) = [("Reset".toList, "Resets.".toList)] := by
  have hs : printers.Reached {} := .start
  have ht : prunedPrinters.Reached {} := .start
  have hpage : (prunedPrinters.document keepAll "Printer").toOption.map
      (fun doc => doc.methods.map fun f => (f.name, f.description)) =
        some [("Reset".toList, "Resets.".toList)] := by
    decide +kernel
  obtain ⟨doc, t', hdoc, hmethods⟩ := exists_page keepAll "Printer" hpage ht.valid rfl
  obtain ⟨r, s', t'', hr, hr'⟩ :=
    Reached.discarded_methods_irrelevant printers_prunes hs rfl ht rfl keepAll "Printer"
  obtain ⟨rfl, _⟩ := hdoc.unique hr'
  exact ⟨doc, s', t', printers_prunes, hs, ht, hr, hdoc, hmethods⟩

end Codebase

/-! ### Classes that are not led to -/

namespace ClassIndex

variable {ix : ClassIndex} {x c k : ClassDecl} {n name : Text}

/-- Neither `x` nor a class to which it leads names a parent or an interface with the key of `k`. -/
def Unrelated (ix : ClassIndex) (x k : ClassDecl) : Prop :=
  ∀ c, ix.Reaches x c → ∀ n, c.parentName? = some n ∨ n ∈ c.interfaceNames → ClassName.key n ≠ k.key

/-- A new class that is not built in makes no name that of a built-in class. -/
theorem isBuiltin_insert (hk : k.isBuiltin = false) (hnew : k.key ∉ ix.keys) (name : Text) :
    (ix.insert k).isBuiltin name = ix.isBuiltin name := by
  unfold isBuiltin
  by_cases hn : ClassName.key name = k.key
  · have hunknown : ix.find? name = none := find?_eq_none_iff.mpr (hn ▸ hnew)
    rw [find?_insert_of_key hn, hunknown, Option.any_some, hk, Option.any_none]
  · rw [find?_insert_of_ne hn]

/-- A name that stands for the same class after `k` was added, one to which `x` leads. -/
structure Kept (ix : ClassIndex) (x k : ClassDecl) (n : Text) : Prop where
  key_ne : ClassName.key n ≠ k.key
  reaches : ∀ p, ix.find? n = some p → ix.Reaches x p

theorem Unrelated.kept (h : ix.Unrelated x k) (hc : ix.Reaches x c)
    (hn : c.parentName? = some n ∨ n ∈ c.interfaceNames) : ix.Kept x k n where
  key_ne := h c hc n hn
  reaches _ hp := hc.tail ⟨n, hn, hp⟩

theorem kept_of_find? (hnew : k.key ∉ ix.keys) (hx : ix.find? name = some x) : ix.Kept x k name where
  key_ne hk := hnew (hk ▸ key_mem_keys_of_find? hx)
  reaches p hp := by
    obtain rfl : x = p := Option.some.inj (hx.symm.trans hp)
    exact .refl

end ClassIndex

namespace Codebase

variable {cb : Codebase} {s t : Session} {x k : ClassDecl} {name : Text}

/-- The code together with one more class. -/
def insert (cb : Codebase) (k : ClassDecl) : Codebase :=
  { cb with index := cb.index.insert k }

/-- Every class to which `x` leads stands for itself. -/
def insertCorrespondence (hk : k.isBuiltin = false) (hnew : k.key ∉ cb.index.keys)
    (h : cb.index.Unrelated x k) : Correspondence cb (cb.insert k) where
  names n n' := n = n' ∧ cb.index.Kept x k n
  classes c c' := c = c' ∧ cb.index.Reaches x c
  methods := (· = ·)
  files := rfl
  isBuiltin := ClassIndex.isBuiltin_insert hk hnew
  key_eq hn := by rw [hn.1]
  display := by
    rintro n _ ⟨rfl, hkept⟩
    refine ⟨rfl, ?_, ?_⟩
    · rw [ClassName.key_display]
      exact hkept.key_ne
    · rw [ClassIndex.find?_congr (ClassName.key_display n)]
      exact hkept.reaches
  find? := by
    rintro n _ ⟨rfl, hkept⟩
    change Option.Rel _ _ ((cb.index.insert k).find? n)
    rw [ClassIndex.find?_insert_of_ne hkept.key_ne]
    cases hf : cb.index.find? n with
    | none => exact .none
    | some p => exact .some ⟨rfl, hkept.reaches p hf⟩
  body := by
    rintro c _ ⟨rfl, _⟩
    rfl
  parent := by
    rintro c _ ⟨rfl, hc⟩
    cases hp : c.parentName? with
    | none => exact .none
    | some n => exact .some ⟨rfl, h.kept hc (.inl hp)⟩
  interfaces := by
    rintro c _ ⟨rfl, hc⟩
    rw [List.forall₂_same]
    exact fun n hn => ⟨rfl, h.kept hc (.inr hn)⟩
  memberwise := by
    rintro c _ ⟨rfl, _⟩
    rw [List.forall₂_same]
    exact fun _ _ => rfl
  origin := MethodDecl.SameButOrigin.of_eq

/-- **A class that the requested one does not lead to has no influence.**  It may be added under a new key, if
it is not built in and neither the requested class nor a class to which it leads names it as parent or
interface.  The request is answered by the same page, also with the same built-in types, or by the same error. -/
theorem Reached.unrelated_class_irrelevant (hk : k.isBuiltin = false) (hnew : k.key ∉ cb.index.keys)
    (hx : cb.index.find? name = some x) (hunrelated : cb.index.Unrelated x k) (hs : cb.Reached s)
    (hschain : s.chain = []) (ht : (cb.insert k).Reached t) (htchain : t.chain = [])
    (keep : MethodDecl → Bool) :
    ∃ r s' t', Returns (cb.documentM keep name) s r s' ∧
      Returns ((cb.insert k).documentM keep name) t r t' := by
  let C := insertCorrespondence hk hnew hunrelated
  have hname : C.names name name := ⟨rfl, ClassIndex.kept_of_find? hnew hx⟩
  have hnames : ∀ n n', C.names n n' → n = n' := fun _ _ hn => hn.1
  have hmethods : ∀ d d', C.methods d d' → d = d' := fun _ _ hd => hd
  exact C.eq_documentM hnames hmethods hs hschain ht htchain keep hname

/-! ### A class that the methods of the printer return -/

open Printer

/-- Extends the printer, and has the methods that would be missing. -/
def Printer.handle : ClassDecl :=
  { name := "Handle", parent := some "Printer", methods := [{ name := "open" }, { name := "reset" }] }

theorem printers_unrelated_handle : printers.index.Unrelated printer handle := by
  intro c hc n hn
  have hnone : ∀ c ∈ printers.index.classes, (∀ n ∈ c.parentName?, ClassName.key n ≠ handle.key) ∧
      ∀ n ∈ c.interfaceNames, ClassName.key n ≠ handle.key := by
    decide +kernel
  have hprinter : printer ∈ printers.index.classes := List.mem_cons_self
  obtain ⟨hparent, hinterfaces⟩ := hnone c (mem_classes_of_reaches hprinter hc)
  exact hn.elim (hparent n) (hinterfaces n)

/-- The type that the printer returns is a known class then, and is shown as before. -/
theorem printers_unrelated_class_irrelevant :
    ∃ doc s' t', handle.isBuiltin = false ∧ handle.key ∉ printers.index.keys ∧
      printers.index.Unrelated printer handle ∧ printers.Reached {} ∧ (printers.insert handle).Reached {} ∧
      Returns (printers.documentM keepAll "Printer") {} (.ok doc) s' ∧
      Returns ((printers.insert handle).documentM keepAll "Printer") {} (.ok doc) t' ∧
      doc.methods.map (fun f => (f.name, f.returnType, f.returnsBuiltin)) =
        [("Reset".toList, "\\Handle".toList, false)] := by
  have hnew : handle.key ∉ printers.index.keys := by decide +kernel
  have hx : printers.index.find? "Printer" = some printer := by decide +kernel
  have hs : printers.Reached {} := .start
  have ht : (printers.insert handle).Reached {} := .start
  have hpage : (printers.document keepAll "Printer").toOption.map
      (fun doc => doc.methods.map fun f => (f.name, f.returnType, f.returnsBuiltin)) =
        some [("Reset".toList, "\\Handle".toList, false)] := by
    decide +kernel
  obtain ⟨doc, s', hdoc, hmethods⟩ := exists_page keepAll "Printer" hpage hs.valid rfl
  obtain ⟨r, s'', t', hr, hr'⟩ :=
    Reached.unrelated_class_irrelevant rfl hnew hx printers_unrelated_handle hs rfl ht rfl keepAll
  obtain ⟨rfl, _⟩ := hdoc.unique hr
  exact ⟨doc, s', t', rfl, hnew, printers_unrelated_handle, hs, ht, hdoc, hr', hmethods⟩

end Codebase

end ApiPages
