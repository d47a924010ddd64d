import ApiPages.Page.Basic
import ApiPages.Proofs.ClassName
import ApiPages.Proofs.MemberList
import ApiPages.Proofs.TableHistory

/-! # The headings of examples

A page shows the examples of its methods below its table, each under a heading with the names of a class and a method.
Every method has a class of its own, which is another one if it was inherited, but the table keeps only the class of the
last method.  So all headings name that class (`render_eq_ascribed`).  They are right exactly if the methods with
examples are of classes with its short name (`render_eq_ascribed_className_iff`), and so they are if nothing is
inherited. -/

namespace ApiPages

namespace Table

variable {t : Table} {events : List Event}

/-- The heading of the example of a method. -/
def exampleHeading (className method : Text) : Text :=
  "\n###### Examples of ".toList ++ ClassName.short className ++ "::".toList ++ method ++ "()\n".toList

theorem exampleHeading_append (className method rest : Text) :
    exampleHeading className method ++ rest =
      "\n###### Examples of ".toList ++
        (ClassName.short className ++ ':' :: ':' :: (method ++ ("()\n".toList ++ rest))) := by
  unfold exampleHeading
  rw [List.append_assoc, List.append_assoc, List.append_assoc, List.append_assoc]
  rfl

/-- The names of two classes without a colon can be read off headings of one method, whatever follows them. -/
theorem exampleHeading_append_inj {className className' method rest rest' : Text} (hc : ':' ∉ className)
    (hc' : ':' ∉ className')
    (h : exampleHeading className method ++ rest = exampleHeading className' method ++ rest') :
    ClassName.short className = ClassName.short className' ∧ rest = rest' := by
  rw [exampleHeading_append, exampleHeading_append] at h
  obtain ⟨hname, htail⟩ := Text.append_cons_inj (fun hm => hc (ClassName.mem_of_mem_short hm))
    (fun hm => hc' (ClassName.mem_of_mem_short hm)) (List.append_cancel_left h)
  have hmethod := (List.cons_inj_right ':').mp htail
  exact ⟨hname, List.append_cancel_left (List.append_cancel_left hmethod)⟩

/-! ### Tables of several methods -/

/-- The event of a method that is added. -/
def addition (declareAbstract includeSee : Bool) (m : MethodDoc) : Event :=
  ⟨.add includeSee m, some (row declareAbstract includeSee m)⟩

theorem Shows.addAll (h : Shows t events) (includeSee : Bool) (methods : List MethodDoc) :
    Shows (methods.foldl (fun t m => t.add includeSee m) t)
      (events ++ methods.map (addition t.declareAbstract includeSee)) := by
  induction methods generalizing t events with
  | nil => simpa using h
  | cons m methods ih =>
      have hrest := ih (h.add includeSee m)
      rwa [List.append_assoc] at hrest

theorem appendExamples_addAll (t : Table) (includeSee : Bool) (methods : List MethodDoc) :
    (methods.foldl (fun t m => t.add includeSee m) t).appendExamples = t.appendExamples := by
  induction methods generalizing t with
  | nil => rfl
  | cons m methods ih => exact ih (t.add includeSee m)

theorem additions_reopen_append (declareAbstract includeSee : Bool) (methods : List MethodDoc) :
    additions ([⟨.reopen, none⟩] ++ methods.map (addition declareAbstract includeSee)) =
      methods.map fun m => (m, row declareAbstract includeSee m) := by
  induction methods using List.reverseRecOn with
  | nil => exact additions_concat_reopen [] none
  | append_singleton methods m ih =>
      rw [List.map_append, ← List.append_assoc, List.map_singleton, additions_concat (by simp [addition]), ih,
        List.map_append, List.map_singleton]
      rfl

theorem filterMap_example? (methods : List MethodDoc) :
    methods.filterMap example? =
      (methods.filter fun m => !m.exampleText.isEmpty).map fun m => (m.name, m.exampleText) := by
  induction methods with
  | nil => rfl
  | cons m methods ih =>
      cases hm : m.exampleText.isEmpty <;> simp [example?, hm, ih]

/-- With distinct names every method that has an example keeps it. -/
theorem examplesOf_of_nodup {added : List (MethodDoc × Text)} {methods : List MethodDoc}
    (hadded : added.map Prod.fst = methods) (h : (methods.map fun m => m.name).Nodup) :
    examplesOf added =
      (methods.filter fun m => !m.exampleText.isEmpty).map fun m => (m.name, m.exampleText) := by
  rw [examplesOf, hadded, filterMap_example?]
  refine lastOfEach_eq_self ?_
  rw [List.map_map]
  exact h.sublist (List.filter_sublist.map fun m : MethodDoc => m.name)

end Table

/-! ### Pages -/

namespace Page

variable {c : ClassDoc} {o : PageOptions}

/-- The class of the last method on a page. -/
def lastClass (c : ClassDoc) : Text :=
  c.methods.getLast?.elim [] fun m => m.className

/-- The example of a method, ascribed to a class of choice. -/
def exampleBlock (classOf : MethodDoc → Text) (m : MethodDoc) : Text :=
  Table.exampleHeading (classOf m) m.name ++ Example.render m.exampleText

/-- The page of a class, with the example of each method ascribed to a class of choice. -/
def ascribed (classOf : MethodDoc → Text) (c : ClassDoc) (o : PageOptions) : Text :=
  top c o ++ summary c ++ relations c ++
    Text.join ['\n'] (Table.heading ++ c.methods.map (Table.row o.declareAbstract o.includeSee)) ++
    (c.methods.filter fun m => !m.exampleText.isEmpty).flatMap (exampleBlock classOf) ++
    '\n' :: seeAlso c

section Ascribed

variable {classOf classOf' : MethodDoc → Text}

theorem ascribed_congr
    (h : ∀ m ∈ c.methods, m.exampleText ≠ [] → ClassName.short (classOf m) = ClassName.short (classOf' m)) :
    ascribed classOf c o = ascribed classOf' c o := by
  have hblocks : (c.methods.filter fun m => !m.exampleText.isEmpty).flatMap (exampleBlock classOf) =
      (c.methods.filter fun m => !m.exampleText.isEmpty).flatMap (exampleBlock classOf') := by
    refine List.flatMap_congr fun m hm => ?_
    obtain ⟨hmem, hexample⟩ := List.mem_filter.mp hm
    have hname := h m hmem (by simpa using hexample)
    unfold exampleBlock Table.exampleHeading
    rw [hname]
  rw [ascribed, ascribed, hblocks]

theorem short_eq_of_flatMap_exampleBlock {methods : List MethodDoc} (hc : ∀ m ∈ methods, ':' ∉ classOf m)
    (hc' : ∀ m ∈ methods, ':' ∉ classOf' m)
    (h : methods.flatMap (exampleBlock classOf) = methods.flatMap (exampleBlock classOf')) :
    ∀ m ∈ methods, ClassName.short (classOf m) = ClassName.short (classOf' m) := by
  induction methods with
  | nil => simp
  | cons m methods ih =>
      rw [List.forall_mem_cons] at hc hc' ⊢
      simp only [List.flatMap_cons, exampleBlock, List.append_assoc] at h
      obtain ⟨hname, hrest⟩ := Table.exampleHeading_append_inj hc.1 hc'.1 h
      exact ⟨hname, ih hc.2 hc'.2 (List.append_cancel_left hrest)⟩

/-- Where class names are without colons, a page shows to which classes its examples are ascribed. -/
theorem ascribed_eq_iff (hc : ∀ m ∈ c.methods, ':' ∉ classOf m) (hc' : ∀ m ∈ c.methods, ':' ∉ classOf' m) :
    ascribed classOf c o = ascribed classOf' c o ↔
      ∀ m ∈ c.methods, m.exampleText ≠ [] → ClassName.short (classOf m) = ClassName.short (classOf' m) := by
  refine ⟨fun h m hm hexample => ?_, ascribed_congr⟩
  have hblocks := List.append_cancel_left (List.append_cancel_right h)
  refine short_eq_of_flatMap_exampleBlock (fun m hm => hc m (List.mem_of_mem_filter hm))
    (fun m hm => hc' m (List.mem_of_mem_filter hm)) hblocks m ?_
  exact List.mem_filter.mpr ⟨hm, by simpa using hexample⟩

end Ascribed

/-- The methods of a page with their rows. -/
def rows (c : ClassDoc) (o : PageOptions) : List (MethodDoc × Text) :=
  c.methods.map fun m => (m, Table.row o.declareAbstract o.includeSee m)

theorem map_fst_rows (c : ClassDoc) (o : PageOptions) : (rows c o).map Prod.fst = c.methods := by
  rw [rows, List.map_map]
  exact List.map_id _

theorem map_snd_rows (c : ClassDoc) (o : PageOptions) :
    (rows c o).map Prod.snd = c.methods.map (Table.row o.declareAbstract o.includeSee) := by
  rw [rows, List.map_map]
  rfl

theorem classOf_rows (c : ClassDoc) (o : PageOptions) : Table.classOf (rows c o) = lastClass c := by
  rw [Table.classOf, lastClass, rows, List.getLast?_map]
  cases c.methods.getLast? <;> rfl

theorem render_table (c : ClassDoc) (o : PageOptions) :
    (table c o).render = Table.layout Table.heading (rows c o) o.appendExamples := by
  set start : Table := { appendExamples := o.appendExamples, declareAbstract := o.declareAbstract } with hstart
  have hshows := (Table.Shows.reopen start []).addAll o.includeSee c.methods
  have hrender := hshows.render_eq
  rw [Table.appendExamples_addAll, List.nil_append, Table.additions_reopen_append, if_pos (by simp)] at hrender
  exact hrender

/-- All examples of a page are ascribed to the class of its last method. -/
theorem render_eq_ascribed (hnames : (c.methods.map fun m => m.name).Nodup) (ho : o.appendExamples = true) :
    render c o = ascribed (fun _ => lastClass c) c o := by
  rw [render, render_table, Table.layout, Table.examplesOf_of_nodup (map_fst_rows c o) hnames, map_snd_rows,
    classOf_rows, ho, if_pos rfl, List.flatMap_map, ascribed]
  have hblock : (fun m : MethodDoc => Table.renderExample (lastClass c) (m.name, m.exampleText)) =
      exampleBlock fun _ => lastClass c := rfl
  simp only [hblock, List.append_assoc]

/-- The class of the last method is the class of some method. -/
theorem exists_lastClass_eq (hne : c.methods ≠ []) : ∃ m ∈ c.methods, lastClass c = m.className := by
  rw [lastClass, List.getLast?_eq_some_getLast hne]
  exact ⟨_, List.getLast_mem hne, rfl⟩

theorem lastClass_eq {className : Text} (h : ∀ m ∈ c.methods, m.className = className) (hne : c.methods ≠ []) :
    lastClass c = className := by
  obtain ⟨m, hm, hlast⟩ := exists_lastClass_eq hne
  rw [hlast, h m hm]

/-- A page ascribes each example to the class of its method exactly if all these classes have the short name of the
last one. -/
theorem render_eq_ascribed_className_iff (hnames : (c.methods.map fun m => m.name).Nodup)
    (ho : o.appendExamples = true) (hc : ∀ m ∈ c.methods, ':' ∉ m.className) :
    render c o = ascribed (fun m => m.className) c o ↔
      ∀ m ∈ c.methods, m.exampleText ≠ [] → ClassName.short (lastClass c) = ClassName.short m.className := by
  rw [render_eq_ascribed hnames ho]
  refine ascribed_eq_iff (fun m hm => ?_) hc
  obtain ⟨last, hmem, hlast⟩ := exists_lastClass_eq (List.ne_nil_of_mem hm)
  exact hlast ▸ hc last hmem

end Page

/-! ### Documented classes -/

namespace Codebase

open SessionM

variable {cb : Codebase} {keep : MethodDecl → Bool}

/-- Methods that do not inherit their documentation are of the class itself. -/
theorem className_of_buildClass {c : ClassDecl} {ask : Text → Except DocError (Option ClassDoc)} {e : ClassDoc}
    (h : buildClass cb ask keep c = .ok e) (hown : ∀ d ∈ members keep c, d.inheritsDoc c = false) :
    ∀ f ∈ e.methods, f.className = ClassName.display c.name := by
  intro f hf
  obtain ⟨d, hd, hb⟩ := exists_member_of_buildClass h hf
  rw [buildMethod, hown d hd] at hb
  cases hb
  rfl

/-- **A page ascribes all its examples to the class of its last method.**  On the page of a documented class, with
examples and methods of distinct names, every method that has an example gets one block, whose heading names the class
of the last method.  If class names are without colons, then the page is the one with the methods' own classes exactly
if every method that has an example is of a class with the short name of the last one.  If no method inherits its
documentation, then it always is. -/
theorem Reached.examples_ascribed_to_last {s s' : Session} {name : Text} {e : ClassDoc} (hs : cb.Reached s)
    (hchain : s.chain = []) (h : Returns (cb.documentM keep name) s (.ok e) s')
    (hnames : (e.methods.map fun f => f.name).Nodup) {o : PageOptions} (ho : o.appendExamples = true) :
    Page.render e o = Page.ascribed (fun _ => Page.lastClass e) e o ∧
    ((∀ f ∈ e.methods, ':' ∉ f.className) →
      (Page.render e o = Page.ascribed (fun f => f.className) e o ↔
        ∀ f ∈ e.methods, f.exampleText ≠ [] →
          ClassName.short (Page.lastClass e) = ClassName.short f.className)) ∧
    ∃ c, cb.index.find? name = some c ∧
      ((∀ d ∈ members keep c, d.inheritsDoc c = false) →
        Page.render e o = Page.ascribed (fun f => f.className) e o) := by
  have hrender := Page.render_eq_ascribed hnames ho
  refine ⟨hrender, Page.render_eq_ascribed_className_iff hnames ho, ?_⟩
  obtain ⟨c, hc, hb⟩ := hs.exists_buildClass hchain h
  refine ⟨c, hc, fun hown => hrender.trans (Page.ascribed_congr fun f hf _ => ?_)⟩
  have hclass := className_of_buildClass hb hown
  rw [Page.lastClass_eq hclass (List.ne_nil_of_mem hf), hclass f hf]

/-! ### A class that inherits its last method -/

namespace Workshop

def base : ClassDecl :=
  { name := "Base", methods := [{ name := "zip", visibility := .prot, comment := some "/** Zips. */" }] }

/-- The first method has an example, and the last one is inherited. -/
def tool : ClassDecl :=
  { name := "Tool", parent := some "Base",
    methods :=
      [{ name := "cut", comment := some "/** Cuts.\n@example cut(); */" },
        inheriting "zip"] }

def cut : MethodDoc := { name := "cut", description := "Cuts.", exampleText := "cut();", className := "\\Tool" }

def zip : MethodDoc := { name := "zip", description := "Zips.", access := .prot, className := "\\Base" }

/-- The documentation of the class. -/
def toolDoc : ClassDoc := { name := "\\Tool", methods := [cut, zip], parent := some "\\Base" }

end Workshop

open Workshop

def workshop : Codebase :=
  ⟨⟨[base, tool], by decide⟩, ⟨fun _ => .error .missing⟩⟩

theorem workshop_document_tool : workshop.document keepAll "Tool" = .ok toolDoc := by
  decide +kernel

theorem workshop_returns_tool : ∃ s', Returns (workshop.documentM keepAll "Tool") {} (.ok toolDoc) s' := by
  have hs : workshop.Reached {} := .start
  obtain ⟨s', hr, _⟩ := documentM_eq_document keepAll "Tool" hs.valid rfl
  rw [workshop_document_tool] at hr
  exact ⟨s', hr⟩

theorem workshop_ascribed_to_last :
    ∃ s', workshop.Reached {} ∧ Returns (workshop.documentM keepAll "Tool") {} (.ok toolDoc) s' ∧
      (toolDoc.methods.map fun f => f.name).Nodup ∧
      Page.render toolDoc {} = Page.ascribed (fun _ => "\\Base".toList) toolDoc {} ∧
      Page.render toolDoc {} ≠ Page.ascribed (fun f => f.className) toolDoc {} := by
  have hs : workshop.Reached {} := .start
  have hnames : (toolDoc.methods.map fun f => f.name).Nodup := by decide
  obtain ⟨s', hr⟩ := workshop_returns_tool
  obtain ⟨hrender, hiff, _⟩ := hs.examples_ascribed_to_last rfl hr hnames (o := {}) rfl
  refine ⟨s', hs, hr, hnames, hrender, fun hown => ?_⟩
  have hshort := (hiff (by decide)).mp hown cut List.mem_cons_self (by decide)
  exact absurd hshort (by decide)

/-- The example of the class's own method is ascribed to its parent. -/
theorem workshop_example_misattributed :
    ∃ s', workshop.Reached {} ∧ Returns (workshop.documentM keepAll "Tool") {} (.ok toolDoc) s' ∧
      (toolDoc.methods.map fun f => f.name).Nodup ∧ cut ∈ toolDoc.methods ∧
      ClassName.short cut.className = "Tool".toList ∧
      Text.occurs "###### Examples of Base::cut()" (Page.render toolDoc {}) = true ∧
      Text.occurs "###### Examples of Tool::cut()" (Page.render toolDoc {}) = false := by
  obtain ⟨s', hr⟩ := workshop_returns_tool
  refine ⟨s', .start, hr, by decide, List.mem_cons_self, by decide, ?_, ?_⟩
  · decide +kernel
  · decide +kernel

end Codebase

end ApiPages
