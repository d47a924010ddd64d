import ApiPages.ClassIndex.Hierarchy
import ApiPages.Documenter.Member

/-! # Documenting a class

A method may ask to inherit its documentation.  Then other classes have to be documented first: its
ancestors and interfaces are asked in turn (`firstDonor`) for a method of the same name.  How they are
asked is left open: `buildClass` takes a function `ask` in some monad, which gives the documentation
of a known class and nothing for an unknown one.

`Codebase.document` asks by documenting the other class anew (`Codebase.resolve`).  The chain of
classes that are being documented grows with each question, and a class that is already on it is a
cycle; so the questions end when all classes of the index are on the chain. -/

namespace ApiPages

/-- Why a class cannot be documented. -/
inductive DocError where
  /-- No other class documents a method that inherits its documentation. -/
  | noDonor (className method : Text)
  /-- A class leads back to itself. -/
  | cycle (name : Text)
  | unknownClass (name : Text)
deriving DecidableEq, Repr

def DocError.message : DocError → Text
  | .noDonor className method =>
    "function ".toList ++ method ++ " in ".toList ++ className ++
      " tries to inherit docs but no parent method is found".toList
  | .cycle name => "cyclic inheritance detected while resolving ".toList ++ name
  | .unknownClass name => "class ".toList ++ name ++ " not found".toList

/-! ### Inherited methods -/

section Ask

variable {m : Type → Type} [Monad m] [MonadExceptOf DocError m]

/-- The method of a name in the first of the named classes that has one. -/
def firstDonor (ask : Text → m (Option ClassDoc)) (method : Text) :
    List Text → m (Option MethodDoc)
  | [] => pure none
  | name :: names => do
    let doc ← ask name
    match doc.bind (·.method? method) with
    | some found => pure (some found)
    | none => firstDonor ask method names

/-- The documentation that the method `d` of the class `c` takes over.  It is not abstract unless the
method or its class is. -/
def adopt (c : ClassDecl) (d : MethodDecl) (found : MethodDoc) : MethodDoc :=
  if d.isAbstract || c.isAbstract then found else { found with isAbstract := false }

/-- Searches the ancestors of a class, then its interfaces, for a method. -/
def findDonor (ix : ClassIndex) (ask : Text → m (Option ClassDoc)) (c : ClassDecl) (method : Text) :
    m (Option MethodDoc) := do
  match ← firstDonor ask method (ix.ancestry c).names with
  | some found => pure (some found)
  | none =>
    match (ix.ancestry c).loop with
    | some name => throw (.cycle name)
    | none => firstDonor ask method (ix.interfaceOrder c)

/-- Documents a method that inherits its documentation. -/
def inherit (ix : ClassIndex) (ask : Text → m (Option ClassDoc)) (c : ClassDecl) (d : MethodDecl) :
    m MethodDoc := do
  match ← findDonor ix ask c d.name with
  | some found => pure (adopt c d found)
  | none => throw (.noDonor (ClassName.display c.name) d.name)

/-! ### Classes -/

/-- Documents a method of the class `c`. -/
def buildMethod (cb : Codebase) (ask : Text → m (Option ClassDoc)) (c : ClassDecl)
    (d : MethodDecl) : m MethodDoc :=
  if d.inheritsDoc c then inherit cb.index ask c d else pure (cb.describe c d)

/-- The methods of a class that are documented, among those that `keep` accepts. -/
def members (keep : MethodDecl → Bool) (c : ClassDecl) : List MethodDecl :=
  c.methods.filter fun d => keep d && !d.isExcluded c

/-- Whether the name of a method comes before that of another, or is the same. -/
def MethodDoc.nameLe (a b : MethodDoc) : Bool :=
  Text.le a.name b.name

/-- Public methods before protected ones, each in the order of their names.  Methods of the same
name keep their order. -/
def arrange (methods : List MethodDoc) : List MethodDoc :=
  (methods.filter (·.access = .pub)).mergeSort MethodDoc.nameLe ++
    (methods.filter (·.access = .prot)).mergeSort MethodDoc.nameLe

/-- The documentation of a class without its methods. -/
def classHeader (c : ClassDecl) : ClassDoc :=
  let comment := Comment.read c.namespaceName (c.comment.getD [])
  { (({ name := ClassName.display c.name } : ItemDoc).apply comment) with
    isInterface := c.isInterface
    isAbstract := c.isAbstract
    isBuiltin := c.isBuiltin
    hasIgnoreTag := comment.ignored
    hasInternalTag := comment.internal
    parent := c.parentName?
    interfaces := c.interfaceNames }

/-- Documents a class with the methods that `keep` accepts. -/
def buildClass (cb : Codebase) (ask : Text → m (Option ClassDoc)) (keep : MethodDecl → Bool)
    (c : ClassDecl) : m ClassDoc := do
  let methods ← (members keep c).mapM (buildMethod cb ask c)
  pure { classHeader c with methods := arrange methods }

end Ask

/-- Keeps every method. -/
def keepAll (_ : MethodDecl) : Bool := true

namespace Codebase

/-- Documents another class with all its methods, while the classes whose keys are on the chain are
being documented. -/
def resolve (cb : Codebase) (chain : List Text) (name : Text) : Except DocError (Option ClassDoc) :=
  if _hv : ClassName.key name ∈ chain then .error (.cycle (ClassName.display name))
  else
    match _hc : cb.index.find? name with
    | none => .ok none
    | some c =>
      some <$> buildClass cb (fun n => cb.resolve (ClassName.key name :: chain) n) keepAll c
termination_by (cb.index.unvisited chain).length
decreasing_by
  exact ClassIndex.length_unvisited_cons_lt (ClassIndex.key_mem_keys_of_find? _hc) _hv

/-- Documents the class of a name with the methods that `keep` accepts. -/
def document (cb : Codebase) (keep : MethodDecl → Bool) (name : Text) : Except DocError ClassDoc :=
  match cb.index.find? name with
  | none => .error (.unknownClass (ClassName.display name))
  | some c => buildClass cb (cb.resolve [c.key]) keep c

end Codebase

end ApiPages
