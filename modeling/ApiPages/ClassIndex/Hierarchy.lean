import ApiPages.ClassIndex.Basic

/-! # Ancestors and interfaces

The order in which other classes are asked for the documentation of an inherited method.  `ancestry`
follows the parents of a class, nearest first, until a class has no known parent or a parent has been
visited before.  `interfaceOrder` lists the known interfaces breadth first: those of the class, those
of its ancestors, and then the interfaces that these extend.  Every key is visited once, so both end
in any index, also in a cyclic one. -/

namespace ApiPages

namespace ClassDecl

/-- The display name of the parent, unless it is blank. -/
def parentName? (c : ClassDecl) : Option Text :=
  (c.parent.filter fun p => !(Text.trim p).isEmpty).map ClassName.display

/-- The display names of the interfaces. -/
def interfaceNames (c : ClassDecl) : List Text :=
  c.interfaces.map ClassName.display

end ClassDecl

/-- The parents of a class. -/
structure Ancestry where
  /-- The known ancestors under the names by which they are extended, nearest first. -/
  ancestors : List (Text × ClassDecl) := []
  /-- The name at which the chain of parents comes back to a visited class. -/
  loop : Option Text := none

/-- The ancestry of a class with the given parent. -/
def Ancestry.cons (name : Text) (parent : ClassDecl) (rest : Ancestry) : Ancestry :=
  { rest with ancestors := (name, parent) :: rest.ancestors }

/-- The names of the ancestors, nearest first. -/
def Ancestry.names (a : Ancestry) : List Text :=
  a.ancestors.map Prod.fst

namespace ClassIndex

/-- The ancestry of a class, where the keys in `visited` have been seen. -/
def ancestryFrom (ix : ClassIndex) (visited : List Text) (c : ClassDecl) : Ancestry :=
  match c.parentName? with
  | none => {}
  | some name =>
    if _hv : ClassName.key name ∈ visited then { loop := some name }
    else
      match _hp : ix.find? name with
      | none => {}
      | some parent => .cons name parent (ix.ancestryFrom (ClassName.key name :: visited) parent)
termination_by (ix.unvisited visited).length
decreasing_by exact length_unvisited_cons_lt (key_mem_keys_of_find? _hp) _hv

section

variable {ix : ClassIndex} {visited : List Text} {c : ClassDecl} {name : Text}

theorem ancestryFrom_root (h : c.parentName? = none) : ix.ancestryFrom visited c = {} := by
  rw [ancestryFrom, h]

theorem ancestryFrom_loop (h : c.parentName? = some name) (hv : ClassName.key name ∈ visited) :
    ix.ancestryFrom visited c = { loop := some name } := by
  rw [ancestryFrom, h]
  exact dif_pos hv

theorem ancestryFrom_unknown (h : c.parentName? = some name) (hv : ClassName.key name ∉ visited)
    (hp : ix.find? name = none) : ix.ancestryFrom visited c = {} := by
  rw [ancestryFrom, h]
  simp only [dif_neg hv]
  split
  · rfl
  · simp_all

theorem ancestryFrom_known {p : ClassDecl} (h : c.parentName? = some name)
    (hv : ClassName.key name ∉ visited) (hp : ix.find? name = some p) :
    ix.ancestryFrom visited c =
      .cons name p (ix.ancestryFrom (ClassName.key name :: visited) p) := by
  rw [ancestryFrom, h]
  simp only [dif_neg hv]
  split <;> simp_all

end

/-- The ancestry of a class. -/
def ancestry (ix : ClassIndex) (c : ClassDecl) : Ancestry :=
  ix.ancestryFrom [c.key] c

/-- The known names of a queue and of the interfaces reached from it, breadth first, leaving out the
keys in `visited`. -/
def interfacesFrom (ix : ClassIndex) (visited : List Text) : (queue : List Text) → List Text
  | [] => []
  | name :: queue =>
    if _hv : ClassName.key name ∈ visited then ix.interfacesFrom visited queue
    else
      match _hc : ix.find? name with
      | none => ix.interfacesFrom visited queue
      | some c =>
        name :: ix.interfacesFrom (ClassName.key name :: visited) (queue ++ c.interfaceNames)
termination_by queue => ((ix.unvisited visited).length, queue.length)
decreasing_by
  · exact Prod.Lex.right _ (by simp)
  · exact Prod.Lex.right _ (by simp)
  · exact Prod.Lex.left _ _ (length_unvisited_cons_lt (key_mem_keys_of_find? _hc) _hv)

section

variable {ix : ClassIndex} {visited queue : List Text} {c : ClassDecl} {name : Text}

theorem interfacesFrom_nil : ix.interfacesFrom visited [] = [] := by
  rw [interfacesFrom]

theorem interfacesFrom_visited (hv : ClassName.key name ∈ visited) :
    ix.interfacesFrom visited (name :: queue) = ix.interfacesFrom visited queue := by
  rw [interfacesFrom]
  exact dif_pos hv

theorem interfacesFrom_unknown (hc : ix.find? name = none) :
    ix.interfacesFrom visited (name :: queue) = ix.interfacesFrom visited queue := by
  rw [interfacesFrom]
  split
  · rfl
  · split
    · rfl
    · simp_all

theorem interfacesFrom_known (hv : ClassName.key name ∉ visited) (hc : ix.find? name = some c) :
    ix.interfacesFrom visited (name :: queue) =
      name :: ix.interfacesFrom (ClassName.key name :: visited) (queue ++ c.interfaceNames) := by
  rw [interfacesFrom]
  simp only [dif_neg hv]
  split <;> simp_all

end

/-- The interfaces of a class and of its ancestors, and those that they extend, breadth first. -/
def interfaceOrder (ix : ClassIndex) (c : ClassDecl) : List Text :=
  ix.interfacesFrom []
    (c.interfaceNames ++ (ix.ancestry c).ancestors.flatMap fun a => a.2.interfaceNames)

end ClassIndex

end ApiPages
