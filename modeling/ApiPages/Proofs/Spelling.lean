import ApiPages.MemberFilter
import ApiPages.Proofs.Correspondence

/-! # How class names are written

The classes to which a declaration refers, its parent, its interfaces and those that declare its methods, may be
written in any letter case, and with backslashes and white space around them.  All comparisons go through the
key: looking up a class, the walks to the ancestors and interfaces, what is being documented, and which methods
belong to a class.  So codebases that differ only in these spellings correspond (`Respells.correspondence`), and
a request is answered alike (`Reached.spelling_irrelevant`). -/

namespace ApiPages

open SessionM

namespace ClassName

variable {n n' : Text}

/-- Names that are looked up alike. -/
def SameKey (n n' : Text) : Prop :=
  key n' = key n

/-- The same text, or two spellings of a class name that is not empty. -/
def Respelled (n n' : Text) : Prop :=
  n' = n ∨ key n ≠ [] ∧ key n' = key n

theorem Respelled.sameKey (h : Respelled n n') : SameKey n n' := by
  rcases h with rfl | ⟨_, h⟩
  · rfl
  · exact h

theorem SameKey.display (h : SameKey n n') : SameKey (ClassName.display n) (ClassName.display n') := by
  rw [SameKey, key_display, key_display]
  exact h

/-- A name of white space has an empty key. -/
theorem trim_ne_nil_of_key (h : key n ≠ []) : Text.trim n ≠ [] := by
  intro hblank
  have hall := Text.strip_eq_nil_iff.mp hblank
  have hempty : Text.strip isOuter n = [] := Text.strip_eq_nil_iff.mpr fun c hc => by
    rw [isOuter, hall c hc, Bool.or_true]
  rw [key, hempty] at h
  exact h rfl

/-- Two spellings are both blank or both not. -/
theorem Respelled.isEmpty_trim (h : Respelled n n') : (Text.trim n').isEmpty = (Text.trim n).isEmpty := by
  rcases h with rfl | ⟨hne, hkey⟩
  · rfl
  · have hn := trim_ne_nil_of_key hne
    have hn' := trim_ne_nil_of_key (hkey ▸ hne)
    rw [List.isEmpty_eq_false_iff.mpr hn, List.isEmpty_eq_false_iff.mpr hn']

end ClassName

/-! ### Declarations that are written differently -/

/-- The same method, whose class may be spelled differently. -/
structure MethodDecl.Respells (d d' : MethodDecl) : Prop where
  origin : d.SameButOrigin d'
  declaringClass : Option.Rel ClassName.Respelled d.declaringClass d'.declaringClass

/-- The same class, which may spell the classes to which it refers differently. -/
structure ClassDecl.Respells (c c' : ClassDecl) : Prop where
  body : c.SameBody c'
  parent : Option.Rel ClassName.Respelled c.parent c'.parent
  interfaces : List.Forall₂ ClassName.Respelled c.interfaces c'.interfaces
  methods : List.Forall₂ MethodDecl.Respells c.methods c'.methods

section Respells

variable {c c' : ClassDecl} {d d' : MethodDecl}

theorem MemberFilter.accepts_declaringClass (f : MemberFilter) (d : MethodDecl) (origin : Option Text) :
    f.accepts { d with declaringClass := origin } = f.accepts d :=
  rfl

/-- A method belongs to its class under every spelling. -/
theorem MethodDecl.Respells.isExcluded_eq (hd : d.Respells d') (hc : c.SameBody c') :
    d'.isExcluded c' = d.isExcluded c := by
  have hread := hd.origin.read_eq hc
  have hvisibility : d'.visibility = d.visibility := by rw [hd.origin]
  have hforeign : (d'.declaringClass.any fun n => !(ClassDoc.ofName c.name).isNamed n) =
      d.declaringClass.any fun n => !(ClassDoc.ofName c.name).isNamed n := by
    have horigin := hd.declaringClass
    generalize d.declaringClass = n? at horigin ⊢
    generalize d'.declaringClass = n'? at horigin ⊢
    cases horigin with
    | none => rfl
    | some hn =>
        have hkey : ClassName.key _ = ClassName.key _ := hn.sameKey
        rw [Option.any_some, Option.any_some, ClassDoc.isNamed_ofName, ClassDoc.isNamed_ofName, hkey]
  rw [isExcluded, isExcluded, hread, hvisibility, hc.name_eq, hforeign]

theorem ClassDecl.Respells.rel_members (h : c.Respells c') :
    List.Forall₂ MethodDecl.Respells (members keepAll c) (members keepAll c') := by
  unfold members
  refine List.rel_filter ?_ h.methods
  intro d d' hd
  simp only [hd.isExcluded_eq h.body, keepAll]

theorem ClassDecl.Respells.rel_parentName (h : c.Respells c') :
    Option.Rel ClassName.SameKey c.parentName? c'.parentName? := by
  have hparent := h.parent
  unfold parentName?
  generalize c.parent = p? at hparent ⊢
  generalize c'.parent = p'? at hparent ⊢
  cases hparent with
  | none => exact .none
  | @some p p' hp =>
      rw [Option.filter_some, Option.filter_some, hp.isEmpty_trim]
      cases (Text.trim p).isEmpty with
      | true => exact .none
      | false => exact .some hp.sameKey.display

theorem ClassDecl.Respells.rel_interfaceNames (h : c.Respells c') :
    List.Forall₂ ClassName.SameKey c.interfaceNames c'.interfaceNames := by
  refine List.rel_map ?_ h.interfaces
  intro n n' hn
  exact hn.sameKey.display

end Respells

namespace Codebase

variable {cb cb' : Codebase} {s t : Session} {name name' : Text}

/-- The same code, in which parents, interfaces and the classes that declare methods are spelled differently. -/
structure Respells (cb cb' : Codebase) : Prop where
  files : cb'.files = cb.files
  index : ClassIndex.Matched ClassDecl.Respells cb.index cb'.index

/-- Names with the same key stand for the same. -/
def Respells.correspondence (h : cb.Respells cb') : Correspondence cb cb' where
  names := ClassName.SameKey
  classes := ClassDecl.Respells
  methods := MethodDecl.Respells
  files := h.files
  isBuiltin := h.index.isBuiltin_eq fun _ _ => ClassDecl.Respells.body
  key_eq hn := hn
  display hn := hn.display
  find? {n n'} hn := by
    rw [ClassIndex.find?_congr hn]
    exact h.index n
  body := ClassDecl.Respells.body
  parent := ClassDecl.Respells.rel_parentName
  interfaces := ClassDecl.Respells.rel_interfaceNames
  memberwise := ClassDecl.Respells.rel_members
  origin := MethodDecl.Respells.origin

/-- **The spelling of class names has no influence.**  If two codebases differ only in how parents, interfaces
and declaring classes are spelled, and a class is requested under two names with the same key, then both
requests give the class or both fail.  The pages are the same, with the same methods, except that parent and
interfaces may be spelled differently; the errors are of the same kind, and a class on a cycle may be spelled
differently.  Methods may be chosen in any way that does not look at their declaring class. -/
theorem Reached.spelling_irrelevant (h : cb.Respells cb') (hname : ClassName.key name' = ClassName.key name)
    (hs : cb.Reached s) (hschain : s.chain = []) (ht : cb'.Reached t) (htchain : t.chain = [])
    {keep : MethodDecl → Bool} (hkeep : ∀ d origin, keep { d with declaringClass := origin } = keep d) :
    ∃ r r' s' t', Returns (cb.documentM keep name) s r s' ∧
      Returns (cb'.documentM keep name') t r' t' ∧ AnswersAlike ClassName.SameKey r r' := by
  have hchosen : ∀ d d', MethodDecl.Respells d d' → keep d' = keep d := by
    intro d d' hd
    obtain ⟨origin, rfl⟩ := hd.origin.exists_eq
    exact hkeep d origin
  exact h.correspondence.rel_documentM hs hschain ht htchain hchosen hname

/-! ### An account in two spellings -/

namespace Account

def total (origin : Text) : MethodDecl :=
  { inheriting "total" with declaringClass := some origin }

/-- The method that it inherits from. -/
def ledgerTotal (origin : Text) : MethodDecl :=
  { name := "Total", declaringClass := some origin, comment := some "/** Sums. */" }

def account (parent countable origin : Text) : ClassDecl :=
  { name := "Account", parent := some parent, interfaces := [countable], methods := [total origin] }

def ledger (origin : Text) : ClassDecl := { name := "Ledger", methods := [ledgerTotal origin] }

end Account

open Account

def accounts : Codebase :=
  ⟨⟨[account "Ledger" "Countable" "Account", ledger "\\Ledger"], by decide⟩, ⟨fun _ => .error .missing⟩⟩

def loudAccounts : Codebase :=
  ⟨⟨[account " \\LEDGER\\" "\\COUNTABLE" "\\ACCOUNT", ledger "LEDGER "], by decide⟩,
    ⟨fun _ => .error .missing⟩⟩

theorem accounts_respells : accounts.Respells loudAccounts where
  files := rfl
  index := by
    refine ClassIndex.matched_of_forall₂ (fun _ _ => ClassDecl.Respells.body) (.cons ?_ (.cons ?_ .nil))
    · exact {
        body := rfl
        parent := .some (.inr (by decide +kernel))
        interfaces := .cons (.inr (by decide +kernel)) .nil
        methods := .cons ⟨rfl, .some (.inr (by decide +kernel))⟩ .nil }
    · exact {
        body := rfl
        parent := .none
        interfaces := .nil
        methods := .cons ⟨rfl, .some (.inr (by decide +kernel))⟩ .nil }

/-- The method is inherited under both spellings, and the pages spell the parent as it is declared. -/
theorem accounts_spelling_irrelevant :
    ∃ doc doc' s' t', accounts.Respells loudAccounts ∧
      ClassName.key "\\ACCOUNT " = ClassName.key "Account" ∧
      accounts.Reached {} ∧ loudAccounts.Reached {} ∧
      Returns (accounts.documentM ({} : MemberFilter).accepts "Account") {} (.ok doc) s' ∧
      Returns (loudAccounts.documentM ({} : MemberFilter).accepts "\\ACCOUNT ") {} (.ok doc') t' ∧
      doc.parent = some "\\Ledger" ∧ doc'.parent = some "\\LEDGER" ∧
      doc.methods.map (·.description) = ["Sums.".toList] ∧ doc.Like ClassName.SameKey doc' := by
  have hkey : ClassName.key "\\ACCOUNT " = ClassName.key "Account" := by decide +kernel
  have hs : accounts.Reached {} := .start
  have ht : loudAccounts.Reached {} := .start
  have hpage : (accounts.document ({} : MemberFilter).accepts "Account").toOption.map
      (fun doc => (doc.parent, doc.methods.map (·.description))) =
        some (some "\\Ledger".toList, ["Sums.".toList]) := by
    decide +kernel
  have hpage' : (loudAccounts.document ({} : MemberFilter).accepts "\\ACCOUNT ").toOption.map (·.parent) =
      some (some "\\LEDGER".toList) := by
    decide +kernel
  obtain ⟨doc, s', hdoc, hshown⟩ := exists_page ({} : MemberFilter).accepts "Account" hpage hs.valid rfl
  obtain ⟨doc', t', hdoc', hparent'⟩ :=
    exists_page ({} : MemberFilter).accepts "\\ACCOUNT " hpage' ht.valid rfl
  obtain ⟨hparent, hmethods⟩ := Prod.mk.inj hshown
  obtain ⟨r, r', _, _, hr, hr', halike⟩ :=
    Reached.spelling_irrelevant accounts_respells hkey hs rfl ht rfl ({} : MemberFilter).accepts_declaringClass
  obtain ⟨rfl, _⟩ := hdoc.unique hr
  obtain ⟨rfl, _⟩ := hdoc'.unique hr'
  cases halike with
  | ok hlike =>
      exact ⟨doc, doc', s', t', accounts_respells, hkey, hs, ht, hdoc, hdoc', hparent, hparent', hmethods,
        hlike⟩

end Codebase

end ApiPages
