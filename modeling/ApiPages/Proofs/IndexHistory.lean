import Mathlib.Data.Finset.Card
import ApiPages.ClassIndex.Load
import ApiPages.Decl.Json
import ApiPages.Proofs.ByteOrder
import ApiPages.Proofs.Failure

/-! # How an index is filled

An index starts empty or with the built-in classes and is then filled step by step (`Step`).  Whatever can fail in a
step comes before the first class is added, so a step adds all classes of its document or none (`Step.runOn_run`).
A whole history adds the classes of its steps one after the other (`afterAll_eq_insertAll`).  An index into which
classes were inserted knows the last class of each key (`find?_insertAll`) and no other key (`mem_keys_insertAll`).

The names that an index lists lead back to the classes they belong to (`find?_listedName`), so none of them is unknown
when it is documented. -/

namespace ApiPages

open SessionM

/-! ### Steps -/

/-- The class with a relative path of its source file joined to a directory. -/
def ClassDecl.placedIn (directory : Text) (c : ClassDecl) : ClassDecl :=
  { c with file := c.file.map fun path => if Path.isAbsolute path then path else Path.join directory path }

theorem ClassDecl.below_eq_placedIn (directory : Text) (c : ClassDecl) : c.below directory = c.placedIn directory := by
  have hjoin : Path.join directory = fun path => if Path.isAbsolute path then path else Path.join directory path := by
    funext path
    by_cases h : Path.isAbsolute path = true
    · simp [Path.join, h]
    · simp [h]
  unfold below placedIn
  rw [← hjoin]

namespace IndexM

variable {α β : Type} {x : IndexM α} {ix ix' : ClassIndex}

theorem runOn_bind_of_ok {a : α} (h : x.runOn ix = (.ok a, ix')) (f : α → IndexM β) :
    (x >>= f).runOn ix = (f a).runOn ix' := by
  change (ExceptT.bindCont f (x.runOn ix).1).run (x.runOn ix).2 = _
  rw [h]
  rfl

theorem runOn_forM_insert (cs : List ClassDecl) (ix : ClassIndex) :
    (cs.forM insert).runOn ix = (.ok (), ix.insertAll cs) := by
  induction cs generalizing ix with
  | nil => rfl
  | cons c cs ih =>
      have hinsert : (insert c).runOn ix = (.ok (), ix.insert c) := rfl
      change (insert c >>= fun _ => cs.forM insert).runOn ix = _
      rw [runOn_bind_of_ok hinsert, ih]
      rfl

theorem runOn_load_none (ix : ClassIndex) : (load none).runOn ix = (.error .malformed, ix) :=
  rfl

theorem runOn_load_some (cs : List ClassDecl) (ix : ClassIndex) :
    (load (some cs)).runOn ix = (.ok cs.length, ix.insertAll cs) :=
  runOn_bind_of_ok (runOn_forM_insert cs ix) _

end IndexM

namespace ClassIndex

/-- A step that fills an index.  The files are those at the time of the step. -/
inductive Step where
  | insert (c : ClassDecl)
  | loadText (text : Text)
  | loadFile (files : FileTree) (path : Text)

namespace Step

/-- The work of a step, which counts the classes that it adds. -/
def run (read : DocumentReader) : Step → IndexM Nat
  | .insert c => do
    IndexM.insert c
    pure 1
  | .loadText text => read.loadText text
  | .loadFile files path => read.loadFile files path

/-- The classes of a step; none if its document cannot be read or is malformed. -/
def classes? (read : DocumentReader) : Step → Option (List ClassDecl)
  | .insert c => some [c]
  | .loadText text => read text
  | .loadFile files path =>
    match files.read path with
    | .error _ => none
    | .ok text => (read text).map (List.map (ClassDecl.placedIn (Path.directoryOf path)))

/-- The classes that a step adds. -/
def added (read : DocumentReader) (step : Step) : List ClassDecl :=
  (step.classes? read).getD []

end Step

/-- The index that a step leaves behind, whether it fails or not. -/
def after (read : DocumentReader) (ix : ClassIndex) (step : Step) : ClassIndex :=
  ((step.run read).runOn ix).2

/-- The index after all steps. -/
def afterAll (read : DocumentReader) (ix : ClassIndex) (steps : List Step) : ClassIndex :=
  steps.foldl (after read) ix

variable {ix : ClassIndex} {c : ClassDecl} {cs : List ClassDecl} {name : Text}

/-- A step that fails leaves the index as it was.  Any other adds all of its classes. -/
theorem Step.runOn_run (read : DocumentReader) (step : Step) (ix : ClassIndex) :
    (∃ e, step.classes? read = none ∧ (step.run read).runOn ix = (.error e, ix)) ∨
      ∃ cs, step.classes? read = some cs ∧ (step.run read).runOn ix = (.ok cs.length, ix.insertAll cs) := by
  cases step with
  | insert c => exact .inr ⟨[c], rfl, rfl⟩
  | loadText text =>
      rw [run, classes?, DocumentReader.loadText]
      cases read text with
      | none => exact .inl ⟨.malformed, rfl, IndexM.runOn_load_none ix⟩
      | some cs => exact .inr ⟨cs, rfl, IndexM.runOn_load_some cs ix⟩
  | loadFile files path =>
      have hplaced : ClassDecl.below (Path.directoryOf path) = ClassDecl.placedIn (Path.directoryOf path) :=
        funext (ClassDecl.below_eq_placedIn (Path.directoryOf path))
      simp only [run, classes?, DocumentReader.loadFile]
      cases files.read path with
      | error fault => exact .inl ⟨.unreadable path fault, rfl, rfl⟩
      | ok text =>
          simp only [hplaced]
          cases read text with
          | none => exact .inl ⟨.malformed, rfl, IndexM.runOn_load_none ix⟩
          | some cs => exact .inr ⟨_, rfl, IndexM.runOn_load_some _ ix⟩

theorem after_eq_insertAll (read : DocumentReader) (ix : ClassIndex) (step : Step) :
    ix.after read step = ix.insertAll (step.added read) := by
  unfold after Step.added
  rcases step.runOn_run read ix with ⟨e, hnone, hrun⟩ | ⟨cs, hsome, hrun⟩
  · rw [hrun, hnone]
    rfl
  · rw [hrun, hsome]
    rfl

theorem insertAll_append (ix : ClassIndex) (cs cs' : List ClassDecl) :
    ix.insertAll (cs ++ cs') = (ix.insertAll cs).insertAll cs' :=
  List.foldl_append

theorem afterAll_eq_insertAll (read : DocumentReader) (ix : ClassIndex) (steps : List Step) :
    ix.afterAll read steps = ix.insertAll (steps.flatMap (Step.added read)) := by
  induction steps generalizing ix with
  | nil => rfl
  | cons step steps ih =>
      have hcons : ix.afterAll read (step :: steps) = (ix.after read step).afterAll read steps := rfl
      rw [hcons, ih, after_eq_insertAll, List.flatMap_cons, insertAll_append]

/-! ### What an index knows -/

theorem find?_insertAll (cs : List ClassDecl) (name : Text) :
    (empty.insertAll cs).find? name = cs.reverse.find? (·.key == ClassName.key name) := by
  induction cs using List.reverseRecOn with
  | nil => rfl
  | append_singleton cs c ih =>
      have hlast : empty.insertAll (cs ++ [c]) = (empty.insertAll cs).insert c := insertAll_append _ _ _
      rw [hlast, List.reverse_concat]
      by_cases hk : c.key = ClassName.key name
      · rw [find?_insert_of_key hk.symm, List.find?_cons_of_pos (by simp [hk])]
      · rw [find?_insert_of_ne (Ne.symm hk), ih, List.find?_cons_of_neg (by simp [hk])]

theorem mem_keys_insertAll (cs : List ClassDecl) (k : Text) :
    k ∈ (empty.insertAll cs).keys ↔ k ∈ cs.map ClassDecl.key := by
  induction cs using List.reverseRecOn with
  | nil => rfl
  | append_singleton cs c ih =>
      have hlast : empty.insertAll (cs ++ [c]) = (empty.insertAll cs).insert c := insertAll_append _ _ _
      have hkeys : k ∈ ((empty.insertAll cs).insert c).keys ↔ k ∈ (empty.insertAll cs).keys ∨ k = c.key := by
        simp only [keys, insert, without, List.map_append, List.mem_append, List.mem_map, List.mem_filter]
        constructor
        · rintro (⟨d, ⟨hd, _⟩, rfl⟩ | ⟨d, hd, rfl⟩)
          · exact .inl ⟨d, hd, rfl⟩
          · exact .inr (by rw [List.mem_singleton.mp hd])
        · rintro (⟨d, hd, rfl⟩ | rfl)
          · by_cases hk : d.key = c.key
            · exact .inr ⟨c, List.mem_singleton_self c, hk.symm⟩
            · exact .inl ⟨d, ⟨hd, by simpa using hk⟩, rfl⟩
          · exact .inr ⟨c, List.mem_singleton_self c, rfl⟩
      rw [hlast, hkeys, ih, List.map_append, List.mem_append, List.map_singleton, List.mem_singleton]

theorem size_insertAll (cs : List ClassDecl) :
    (empty.insertAll cs).size = (cs.map ClassDecl.key).toFinset.card := by
  have hkeys : (empty.insertAll cs).keys.toFinset = (cs.map ClassDecl.key).toFinset := by
    ext k
    rw [List.mem_toFinset, List.mem_toFinset, mem_keys_insertAll]
  have hnodup : (empty.insertAll cs).keys.Nodup := (empty.insertAll cs).distinct
  rw [← hkeys, List.toFinset_card_of_nodup hnodup, keys, List.length_map, size]

/-- Classes with new and distinct keys are added at the end. -/
theorem classes_insertAll_of_nodup (h : ((ix.classes ++ cs).map ClassDecl.key).Nodup) :
    (ix.insertAll cs).classes = ix.classes ++ cs := by
  induction cs generalizing ix with
  | nil => exact (List.append_nil _).symm
  | cons c cs ih =>
      have hcons : ix.insertAll (c :: cs) = (ix.insert c).insertAll cs := rfl
      have hothers : without ix.classes c.key = ix.classes := by
        refine List.filter_eq_self.mpr fun d hd => ?_
        rw [List.map_append, List.nodup_append] at h
        rw [bne_iff_ne]
        exact h.2.2 d.key (List.mem_map_of_mem hd) c.key (List.mem_map_of_mem List.mem_cons_self)
      have hnew : (ix.insert c).classes = ix.classes ++ [c] := congrArg (· ++ [c]) hothers
      rw [hcons, ih (by rw [hnew, List.append_assoc]; exact h), hnew, List.append_assoc, List.singleton_append]

/-! ### The listed names -/

/-- The name under which a class is listed. -/
def listedName (c : ClassDecl) : Text :=
  c.name.dropWhile ClassName.isBackslash

theorem dropWhile_isOuter_dropWhile_isBackslash (s : Text) :
    (s.dropWhile ClassName.isBackslash).dropWhile ClassName.isOuter = s.dropWhile ClassName.isOuter := by
  induction s with
  | nil => rfl
  | cons d s ih =>
      by_cases hd : ClassName.isBackslash d = true
      · have houter : ClassName.isOuter d = true := by
          unfold ClassName.isOuter
          rw [show (d == '\\') = true from hd, Bool.true_or]
        rw [List.dropWhile_cons_of_pos hd, ih, List.dropWhile_cons_of_pos houter]
      · rw [List.dropWhile_cons_of_neg hd]

/-- Leading backslashes do not matter to the key, although the key ignores white space as well. -/
theorem key_listedName (c : ClassDecl) : ClassName.key (listedName c) = c.key := by
  unfold listedName ClassDecl.key ClassName.key Text.strip
  rw [dropWhile_isOuter_dropWhile_isBackslash]

theorem find?_listedName (h : c ∈ ix.classes) : ix.find? (listedName c) = some c :=
  (find?_congr (key_listedName c)).trans (find?_name_of_mem h)

theorem mem_classes_iff : c ∈ ix.classes ↔ ∃ name, ix.find? name = some c :=
  ⟨fun h => ⟨c.name, find?_name_of_mem h⟩, fun ⟨_, h⟩ => mem_of_find? h⟩

theorem sorted_documentable (ix : ClassIndex) :
    ix.documentable.Pairwise fun s t => Text.bytes s ≤ Text.bytes t := by
  have hsorted := List.pairwise_mergeSort Text.le_trans Text.le_total
    ((ix.classes.filter fun c => !c.isBuiltin).map listedName)
  exact hsorted.imp fun {s t} h => (Text.le_iff_bytes_le s t).mp h

theorem exists_documentable (ix : ClassIndex) :
    ∃ cs : List ClassDecl, cs.Nodup ∧
      (∀ c, c ∈ cs ↔ c.isBuiltin = false ∧ ∃ name, ix.find? name = some c) ∧
      ix.documentable = cs.map listedName ∧ ∀ c ∈ cs, ix.find? (listedName c) = some c := by
  let shown := ix.classes.filter fun c => !c.isBuiltin
  let cs := shown.mergeSort fun c d => Text.le (listedName c) (listedName d)
  have hperm : cs.Perm shown := List.mergeSort_perm _ _
  have hmem : ∀ c, c ∈ cs ↔ c ∈ ix.classes ∧ c.isBuiltin = false := by
    intro c
    rw [hperm.mem_iff, List.mem_filter, Bool.not_eq_true']
  refine ⟨cs, ?_, ?_, ?_, ?_⟩
  · exact hperm.nodup_iff.mpr ((List.Nodup.of_map _ ix.distinct).filter _)
  · intro c
    rw [hmem, mem_classes_iff, and_comm]
  · have hmap : cs.map listedName = (shown.map listedName).mergeSort Text.le :=
      List.map_mergeSort fun _ _ _ _ => rfl
    exact hmap.symm
  · intro c hc
    exact find?_listedName ((hmem c).mp hc).1

end ClassIndex

namespace Codebase

variable {cb : Codebase} {c : ClassDecl} {name : Text} {keep : MethodDecl → Bool}

/-- A known class is never reported as unknown, nor is any class that it needs. -/
theorem document_ne_unknownClass (hf : cb.index.find? name = some c) (n : Text) :
    cb.document keep name ≠ .error (.unknownClass n) := by
  intro h
  cases failure_of_document hf h

theorem documentEach_documentable (cb : Codebase) (keep : MethodDecl → Bool) :
    let answers := (cb.documentEach keep [] cb.index.documentable).1
    answers.length = cb.index.documentable.length ∧ ∀ n, .error (.unknownClass n) ∉ answers := by
  intro answers
  have hanswers : answers = cb.index.documentable.map (cb.document keep) :=
    documentEach_answers cb.index.documentable (Session.valid_start cb)
  obtain ⟨cs, _, _, hlist, hfind⟩ := cb.index.exists_documentable
  rw [hanswers]
  refine ⟨List.length_map _, ?_⟩
  intro n hn
  obtain ⟨listed, hlisted, heq⟩ := List.mem_map.mp hn
  rw [hlist] at hlisted
  obtain ⟨c, hc, rfl⟩ := List.mem_map.mp hlisted
  exact document_ne_unknownClass (hfind c hc) n heq

end Codebase

namespace ClassIndex

/-! ### Histories -/

/-- What an index starts with. -/
inductive Origin where
  | empty
  | builtins

namespace Origin

def index : Origin → ClassIndex
  | .empty => ClassIndex.empty
  | .builtins => ClassIndex.withBuiltins

def classes : Origin → List ClassDecl
  | .empty => []
  | .builtins => builtinClasses

theorem index_eq_insertAll (origin : Origin) : origin.index = ClassIndex.empty.insertAll origin.classes := by
  cases origin <;> rfl

end Origin

/-- **The last write wins.**  However documents are read and whatever steps fill an index, successful or not, a name
leads to the class of its key that was added last.  A step that fails leaves the index as it was; any other adds all
of its classes and counts them.  The index counts the distinct keys, and it lists the known classes that are not built
in, one name each, in the order of bytes.  Each listed name leads to its class, so that none is unknown when all of
them are documented. -/
theorem afterAll_last_write_wins (read : DocumentReader) (origin : Origin) (steps : List Step) :
    let ix := origin.index.afterAll read steps
    let added := origin.classes ++ steps.flatMap (Step.added read)
    (∀ name, ix.find? name = added.reverse.find? (·.key == ClassName.key name)) ∧
    (∀ step : Step,
      match (step.run read).runOn ix with
      | (.error _, ix') => step.classes? read = none ∧ ix' = ix
      | (.ok count, ix') => ∃ cs, step.classes? read = some cs ∧ count = cs.length ∧ ix' = ix.insertAll cs) ∧
    ix.size = (added.map ClassDecl.key).toFinset.card ∧
    (ix.documentable.Pairwise fun s t => Text.bytes s ≤ Text.bytes t) ∧
    (∃ cs : List ClassDecl, cs.Nodup ∧
      (∀ c, c ∈ cs ↔ c.isBuiltin = false ∧ ∃ name, ix.find? name = some c) ∧
      ix.documentable = cs.map listedName ∧ ∀ c ∈ cs, ix.find? (listedName c) = some c) ∧
    ∀ files keep,
      let answers := ((⟨ix, files⟩ : Codebase).documentEach keep [] ix.documentable).1
      answers.length = ix.documentable.length ∧ ∀ name, .error (.unknownClass name) ∉ answers := by
  intro ix added
  have hix : ix = empty.insertAll added := by
    rw [insertAll_append, ← origin.index_eq_insertAll, ← afterAll_eq_insertAll]
  refine ⟨?_, ?_, ?_, ix.sorted_documentable, ix.exists_documentable, ?_⟩
  · intro name
    rw [hix, find?_insertAll]
  · intro step
    rcases step.runOn_run read ix with ⟨e, hnone, hrun⟩ | ⟨cs, hsome, hrun⟩
    · rw [hrun]
      exact ⟨hnone, rfl⟩
    · rw [hrun]
      exact ⟨cs, hsome, rfl, rfl⟩
  · rw [hix, size_insertAll]
  · intro files keep
    exact Codebase.documentEach_documentable ⟨ix, files⟩ keep

/-! ### A history with failures -/

namespace Cellar

/-- A built-in class under another spelling. -/
def counter : ClassDecl := { name := "\\COUNTABLE" }

/-- One document below a directory, with two classes of one key. -/
def files : FileTree :=
  ⟨fun path =>
    if path = "docs/wine.json" then
      .ok "[\x7b\"name\": \"Wine\"\x7d, \x7b\"name\": \"\\\\wine\", \"file\": \"src/wine.php\"\x7d]"
    else .error .missing⟩

def steps : List Step :=
  [.insert counter, .loadText "[1", .loadFile files "docs/wine.json", .loadFile files "docs/beer.json"]

end Cellar

/-- The second class of the document, with the path of its file below the directory of the document. -/
def Cellar.wine : ClassDecl := { name := "\\wine", file := some "docs/src/wine.php" }

/-- Documents are read as JSON.  Two steps fail, the built-in class is replaced, and of two classes of one key the
second one is known and listed.  Another step that fails would leave the index as it is. -/
theorem cellar_last_write_wins :
    let ix := Origin.builtins.index.afterAll ClassDecl.listOfText? Cellar.steps
    ix.find? "Countable" = some Cellar.counter ∧ ix.find? "Wine" = some Cellar.wine ∧ ix.size = 49 ∧
    "wine".toList ∈ ix.documentable ∧
    (∃ e, ((Step.loadText "[1").run ClassDecl.listOfText?).runOn ix = (.error e, ix)) ∧
    ∀ files keep name, .error (.unknownClass name) ∉
      ((⟨ix, files⟩ : Codebase).documentEach keep [] ix.documentable).1 := by
  intro ix
  obtain ⟨hfind, hstep, hsize, _, ⟨cs, _, hmem, hlist, _⟩, hanswers⟩ :=
    afterAll_last_write_wins ClassDecl.listOfText? .builtins Cellar.steps
  have hwine : ix.find? "Wine" = some Cellar.wine := by
    rw [hfind]
    decide +kernel
  refine ⟨?_, hwine, ?_, ?_, ?_, ?_⟩
  · rw [hfind]
    decide +kernel
  · rw [hsize]
    decide +kernel
  · have hshown : Cellar.wine ∈ cs := (hmem Cellar.wine).mpr ⟨rfl, "Wine", hwine⟩
    rw [hlist]
    exact List.mem_map_of_mem (f := listedName) hshown
  · have hnone : (Step.loadText "[1").classes? ClassDecl.listOfText? = none := by decide +kernel
    have hbroken := hstep (.loadText "[1")
    revert hbroken
    rcases ((Step.loadText "[1").run ClassDecl.listOfText?).runOn ix with ⟨e | count, ix'⟩
    · rintro ⟨_, rfl⟩
      exact ⟨e, rfl⟩
    · rintro ⟨cs, hcs, _⟩
      cases hnone.symm.trans hcs
  · intro files keep name
    exact (hanswers files keep).2 name

end ClassIndex

end ApiPages
