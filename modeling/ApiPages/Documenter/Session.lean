import ApiPages.ClassName.Queue
import ApiPages.Documenter.Build

/-! # Documenting many classes

A session documents one class after another and remembers the classes that it had to document with all
their methods on the way.  What it remembers is kept also when a class cannot be documented.

A class that is asked for is taken from memory, or it is documented now.  Its ancestors and interfaces
are found as they are asked for: the documentation of a class names the classes to ask next.  Nothing
in the answers bounds such a search, nor how deep the questions are nested.  So both have a limit, and a
step that comes to its limit does not return (`SessionM.endless`).  The limits are taken from the index:
no search makes more steps, and no chain has more classes. -/

namespace ApiPages

/-- The documentation of classes with all their methods, by key. -/
abbrev Cache := List (Text × ClassDoc)

namespace Cache

/-- The documentation remembered under a key. -/
def find? (cache : Cache) (key : Text) : Option ClassDoc :=
  cache.lookup key

/-- Remembers the documentation of a class, unless there is one under its key. -/
def add (cache : Cache) (key : Text) (doc : ClassDoc) : Cache :=
  match cache.find? key with
  | some _ => cache
  | none => cache ++ [(key, doc)]

end Cache

/-- The state of a session. -/
structure Session where
  /-- What is remembered. -/
  cache : Cache := []
  /-- The keys of the classes that are being documented, the innermost first. -/
  chain : List Text := []
  /-- The chains on which classes were begun, the latest first. -/
  begun : List (List Text) := []

namespace Session

/-- Begins a class. -/
def enter (s : Session) (key : Text) : Session :=
  { s with chain := key :: s.chain, begun := (key :: s.chain) :: s.begun }

/-- Ends the innermost class. -/
def leave (s : Session) : Session :=
  { s with chain := s.chain.tail }

def remember (s : Session) (key : Text) (doc : ClassDoc) : Session :=
  { s with cache := s.cache.add key doc }

end Session

/-- A step of a session: it may fail, and it keeps the state in either case. -/
abbrev SessionM := ExceptT DocError (StateT Session Option)

namespace SessionM

/-- A step that does not return. -/
def endless {α : Type} : SessionM α :=
  show StateT Session Option (Except DocError α) from fun _ => none

/-- Takes a step while the class of a key is being documented. -/
def within {α : Type} (key : Text) (step : SessionM α) : SessionM α :=
  show StateT Session Option (Except DocError α) from do
    modify (·.enter key)
    let result ← step.run
    modify Session.leave
    pure result

/-! ### Searches -/

/-- Follows the parents, nearest first, up to one that has the method. -/
def searchParents (ask : Text → SessionM (Option ClassDoc)) (method : Text) :
    (steps : Nat) → Trail → Option Text → SessionM (Option MethodDoc)
  | 0, _, _ => endless
  | _ + 1, _, none => pure none
  | steps + 1, trail, some name =>
    if h : ClassName.key name ∈ trail.keys then throw (.cycle name)
    else do
      match ← ask name with
      | none => pure none
      | some doc =>
        match doc.method? method with
        | some found => pure (some found)
        | none => searchParents ask method steps (trail.add name h) doc.parent

/-- Follows the parents once more and adds their interfaces to a queue. -/
def collectInterfaces (ask : Text → SessionM (Option ClassDoc)) :
    (steps : Nat) → Trail → Option Text → Queue → SessionM Queue
  | 0, _, _, _ => endless
  | _ + 1, _, none, queue => pure queue
  | steps + 1, trail, some name, queue =>
    if h : ClassName.key name ∈ trail.keys then pure queue
    else do
      match ← ask name with
      | none => pure queue
      | some doc =>
        collectInterfaces ask steps (trail.add name h) doc.parent (queue.add doc.interfaces)

/-- Asks the interfaces of a queue, and adds the interfaces that they extend at its end. -/
def searchInterfaces (ask : Text → SessionM (Option ClassDoc)) (method : Text) :
    (steps : Nat) → Queue → SessionM (Option MethodDoc)
  | 0, _ => endless
  | steps + 1, queue =>
    match queue.next? with
    | none => pure none
    | some (name, queue) => do
      match ← ask name with
      | none => searchInterfaces ask method steps queue
      | some doc =>
        match doc.method? method with
        | some found => pure (some found)
        | none => searchInterfaces ask method steps (queue.add doc.interfaces)

end SessionM

namespace ClassIndex

/-- How many names of interfaces there are in the classes whose keys are not among those taken. -/
def references (ix : ClassIndex) (taken : List Text) : Nat :=
  ((ix.classes.filter fun c => !taken.contains c.key).flatMap ClassDecl.interfaces).length

/-- How many names can still be taken from a queue. -/
def pending (ix : ClassIndex) (queue : Queue) : Nat :=
  queue.waiting.length + ix.references queue.taken

end ClassIndex

namespace Codebase

/-- Searches the ancestors of a class, then its interfaces, for a method. -/
def findDonorM (cb : Codebase) (ask : Text → SessionM (Option ClassDoc)) (c : ClassDecl)
    (method : Text) : SessionM (Option MethodDoc) := do
  let steps := cb.index.size + 1
  match ← SessionM.searchParents ask method steps (.start c.key) c.parentName? with
  | some found => pure (some found)
  | none =>
    let queue ← SessionM.collectInterfaces ask steps (.start c.key) c.parentName?
      (Queue.empty.add c.interfaceNames)
    SessionM.searchInterfaces ask method (cb.index.pending queue + 1) queue

/-- Documents a method of the class `c`. -/
def buildMethodM (cb : Codebase) (ask : Text → SessionM (Option ClassDoc)) (c : ClassDecl)
    (d : MethodDecl) : SessionM MethodDoc := do
  if d.inheritsDoc c then
    match ← cb.findDonorM ask c d.name with
    | some found => pure (adopt c d found)
    | none => throw (.noDonor (ClassName.display c.name) d.name)
  else pure (cb.describe c d)

/-- Documents a class with the methods that `keep` accepts. -/
def buildClassM (cb : Codebase) (ask : Text → SessionM (Option ClassDoc)) (keep : MethodDecl → Bool)
    (c : ClassDecl) : SessionM ClassDoc := do
  let methods ← (members keep c).mapM fun d => cb.buildMethodM ask c d
  pure { classHeader c with methods := arrange methods }

/-- Gives a class from memory, or builds it while it is on the chain and remembers it. -/
def recallOr (cb : Codebase) (build : ClassDecl → SessionM ClassDoc) (name : Text) :
    SessionM (Option ClassDoc) :=
  show StateT Session Option (Except DocError (Option ClassDoc)) from do
    let s ← get
    match s.cache.find? (ClassName.key name) with
    | some doc => pure (.ok (some doc))
    | none =>
      if ClassName.key name ∈ s.chain then pure (.error (.cycle (ClassName.display name)))
      else
        match cb.index.find? name with
        | none => pure (.ok none)
        | some c =>
          let built ← (SessionM.within (ClassName.key name) (build c)).run
          match built with
          | .error e => pure (.error e)
          | .ok doc =>
            modify (·.remember (ClassName.key name) doc)
            pure (.ok (some doc))

/-- Asks for another class with all its methods, where classes are nested at most `depth` deep. -/
def resolveM (cb : Codebase) : (depth : Nat) → Text → SessionM (Option ClassDoc)
  | 0 => cb.recallOr fun _ => .endless
  | depth + 1 => cb.recallOr (cb.buildClassM (cb.resolveM depth) keepAll)

/-- Documents the class of a name with the methods that `keep` accepts. -/
def documentM (cb : Codebase) (keep : MethodDecl → Bool) (name : Text) : SessionM ClassDoc :=
  match cb.index.find? name with
  | none => throw (.unknownClass (ClassName.display name))
  | some c => .within c.key (cb.buildClassM (cb.resolveM cb.index.size) keep c)

/-- The answers of a session for a list of names, and what it remembers at the end.  A request that
does not return is the last one. -/
def documentEach (cb : Codebase) (keep : MethodDecl → Bool) :
    Cache → List Text → List (Except DocError ClassDoc) × Cache
  | cache, [] => ([], cache)
  | cache, name :: names =>
    match (cb.documentM keep name).run.run { cache } with
    | none => ([], cache)
    | some (answer, s) =>
      let (answers, cache) := cb.documentEach keep s.cache names
      (answer :: answers, cache)

end Codebase

end ApiPages
