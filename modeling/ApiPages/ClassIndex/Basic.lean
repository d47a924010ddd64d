import ApiPages.Decl.Basic

/-! # The index of classes

An index holds at most one class for each key.  Adding a class replaces the class with its key, so
that the last one added wins.  The keys that a walk through the index has not yet visited
(`unvisited`) are the measure by which walks end. -/

namespace ApiPages

/-- Classes with distinct keys. -/
structure ClassIndex where
  classes : List ClassDecl
  distinct : (classes.map ClassDecl.key).Nodup

namespace ClassIndex

def empty : ClassIndex := ⟨[], List.nodup_nil⟩

/-- The keys of the classes. -/
def keys (ix : ClassIndex) : List Text :=
  ix.classes.map ClassDecl.key

def size (ix : ClassIndex) : Nat :=
  ix.classes.length

/-- The class with the key of a name. -/
def find? (ix : ClassIndex) (name : Text) : Option ClassDecl :=
  ix.classes.find? (·.key == ClassName.key name)

def contains (ix : ClassIndex) (name : Text) : Bool :=
  (ix.find? name).isSome

/-- Whether a name is that of a built-in class. -/
def isBuiltin (ix : ClassIndex) (name : Text) : Bool :=
  (ix.find? name).any ClassDecl.isBuiltin

/-- The classes with another key than the given one. -/
def without (classes : List ClassDecl) (key : Text) : List ClassDecl :=
  classes.filter (·.key != key)

theorem nodup_without_append (ix : ClassIndex) (c : ClassDecl) :
    ((without ix.classes c.key ++ [c]).map ClassDecl.key).Nodup := by
  simp only [List.map_append, List.map_cons, List.map_nil, List.nodup_append, List.mem_map, without]
  refine ⟨(List.filter_sublist.map _).nodup ix.distinct, by simp, ?_⟩
  rintro k ⟨d, hd, rfl⟩ k' hk' rfl
  simp_all

/-- Adds a class; it replaces the class with its key. -/
def insert (ix : ClassIndex) (c : ClassDecl) : ClassIndex :=
  ⟨without ix.classes c.key ++ [c], ix.nodup_without_append c⟩

def insertAll (ix : ClassIndex) (cs : List ClassDecl) : ClassIndex :=
  cs.foldl insert ix

/-- The names of the classes that are not built in, without leading backslashes and in ascending
order. -/
def documentable (ix : ClassIndex) : List Text :=
  ((ix.classes.filter (fun c => !c.isBuiltin)).map
    (·.name.dropWhile ClassName.isBackslash)).mergeSort Text.le

/-! ### Visited keys -/

/-- The keys of the index that are not among those visited. -/
def unvisited (ix : ClassIndex) (visited : List Text) : List Text :=
  ix.keys.filter (fun k => !visited.contains k)

theorem key_mem_keys_of_find? {ix : ClassIndex} {name : Text} {c : ClassDecl}
    (h : ix.find? name = some c) : ClassName.key name ∈ ix.keys := by
  have hk : c.key = ClassName.key name := by simpa using List.find?_some h
  exact hk ▸ List.mem_map.2 ⟨c, List.mem_of_find?_eq_some h, rfl⟩

/-- Visiting a new key of the index leaves fewer keys unvisited. -/
theorem length_unvisited_cons_lt {ix : ClassIndex} {visited : List Text} {k : Text}
    (hk : k ∈ ix.keys) (hv : k ∉ visited) :
    (ix.unvisited (k :: visited)).length < (ix.unvisited visited).length := by
  have h : ix.unvisited (k :: visited) = (ix.unvisited visited).filter (fun k' => k' != k) := by
    simp only [unvisited, List.filter_filter]
    congr 1
    funext k'
    cases hk' : k' == k <;> simp_all
  rw [h, List.length_filter_lt_length_iff_exists]
  exact ⟨k, by simp [unvisited, hk, hv]⟩

end ClassIndex

end ApiPages
