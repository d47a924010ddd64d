import ApiPages.CommandLine.Run
import ApiPages.Proofs.LeftOut

/-! # Ignored classes in a run

A run over all classes documents them in turn, stops at the first that cannot be documented, and prints those
without an ignore tag.  So an ignored class is left out of the output, but only after it was documented: it changes
nothing if it can be documented, and otherwise the whole run fails (`Readers.runArgs_ignored_class`,
`hidden_class_stops_run`).  This holds however arguments, documents, settings and patterns are read.

The documents without the class give the index without it (`loadIndex_leavesOut`), so that the two runs are compared
class by class. -/

namespace ApiPages

/-- What a run writes to its standard output. -/
def Outcome.output : Outcome → Text
  | .printed text => text
  | .failed _ => []
  | .misused => []

/-- The class of a key is ignored, not built in, and no other class names it as parent or interface. -/
structure ClassIndex.Hides (ix : ClassIndex) (k : Text) : Prop where
  isBuiltin : ∀ c ∈ ix.classes, c.key = k → c.isBuiltin = false
  ignored : ∀ c ∈ ix.classes, c.key = k → (classHeader c).hasIgnoreTag = true
  others : ∀ c ∈ ix.classes, c.key ≠ k →
    ∀ n, c.parentName? = some n ∨ n ∈ c.interfaceNames → ClassName.key n ≠ k

namespace Readers

variable {r : Readers} {i : Invocation} {files files' : FileTree} {configDirectory k : Text}

/-- The same files, but the documents lack the classes of a key. -/
structure LeavesOut (r : Readers) (i : Invocation) (configDirectory k : Text) (files files' : FileTree) : Prop where
  documents : ∀ path ∈ i.documents, (files'.read path).map r.documents =
    (files.read path).map fun text => (r.documents text).map (ClassIndex.without · k)
  settings : r.settings.load files' configDirectory i.settingsPath =
    r.settings.load files configDirectory i.settingsPath
  sources : ∀ ix, r.loadIndex i files = .ok ix → ∀ c ∈ ix.classes, c.key ≠ k →
    ∀ path ∈ c.file, (files'.read path).toOption = (files.read path).toOption

/-- The class of a key can be documented with the methods that are asked for, if the run comes to it. -/
def CanDocument (r : Readers) (i : Invocation) (configDirectory k : Text) (files : FileTree) : Prop :=
  ∀ settings ix filter, r.settings.load files configDirectory i.settingsPath = .ok settings →
    r.loadIndex i files = .ok ix → r.patterns.memberFilter? (i.override settings) = some filter →
      ∀ c ∈ ix.classes, c.key = k → ∃ doc, (⟨ix, files⟩ : Codebase).document filter.accepts c.name = .ok doc

/-! ### Loading -/

theorem without_map_below (directory k : Text) (cs : List ClassDecl) :
    ClassIndex.without (cs.map (ClassDecl.below directory)) k =
      (ClassIndex.without cs k).map (ClassDecl.below directory) := by
  rw [ClassIndex.without, List.filter_map]
  rfl

theorem addDocument_of_error {ix : ClassIndex} {path : Text} {fault : ReadFault} (h : files.read path = .error fault) :
    r.addDocument files ix path = .error (.document path (.unreadable path fault)) := by
  simp only [addDocument, IndexM.toExcept, DocumentReader.loadFile, h]
  rfl

theorem addDocument_of_ok {ix : ClassIndex} {path text : Text} (h : files.read path = .ok text) :
    r.addDocument files ix path =
      match r.documents text with
      | none => .error (.document path .malformed)
      | some cs => .ok (ix.insertAll (cs.map (ClassDecl.below (Path.directoryOf path)))) := by
  simp only [addDocument, IndexM.toExcept, DocumentReader.loadFile, h]
  cases r.documents text with
  | none => rfl
  | some cs => rw [Option.map_some, IndexM.runOn_load_some]

/-- A document without the class of a key adds the other classes. -/
theorem addDocument_leaveOut (h : r.LeavesOut i configDirectory k files files') {path : Text}
    (hpath : path ∈ i.documents) (ix : ClassIndex) :
    r.addDocument files' (ix.leaveOut k) path = (r.addDocument files ix path).map (ClassIndex.leaveOut · k) := by
  have hread := h.documents path hpath
  cases htext : files.read path with
  | error fault =>
      cases htext' : files'.read path with
      | error fault' =>
          rw [htext, htext'] at hread
          cases hread
          rw [addDocument_of_error htext, addDocument_of_error htext']
          rfl
      | ok text' => simp [htext, htext', Except.map] at hread
  | ok text =>
      cases htext' : files'.read path with
      | error fault' => simp [htext, htext', Except.map] at hread
      | ok text' =>
          rw [htext, htext'] at hread
          have hlist : r.documents text' = (r.documents text).map (ClassIndex.without · k) :=
            Except.ok.inj hread
          rw [addDocument_of_ok htext, addDocument_of_ok htext', hlist]
          cases r.documents text with
          | none => rfl
          | some cs => simp only [Option.map_some, Except.map, ClassIndex.leaveOut_insertAll, without_map_below]

/-- The documents without the class of a key give the index without it. -/
theorem loadIndex_leavesOut (hstub : k ∉ ClassIndex.withBuiltins.keys)
    (h : r.LeavesOut i configDirectory k files files') :
    r.loadIndex i files' = (r.loadIndex i files).map (ClassIndex.leaveOut · k) := by
  have hload : ∀ (paths : List Text) (ix : ClassIndex), (∀ path ∈ paths, path ∈ i.documents) →
      paths.foldlM (r.addDocument files') (ix.leaveOut k) =
        (paths.foldlM (r.addDocument files) ix).map (ClassIndex.leaveOut · k) := by
    intro paths
    induction paths with
    | nil => exact fun _ _ => rfl
    | cons path paths ih =>
        intro ix hpaths
        obtain ⟨hpath, hpaths⟩ := List.forall_mem_cons.mp hpaths
        rw [List.foldlM_cons, List.foldlM_cons, addDocument_leaveOut h hpath]
        cases r.addDocument files ix path with
        | error e => rfl
        | ok loaded => exact ih loaded hpaths
  have hstart := hload i.documents .withBuiltins fun _ hpath => hpath
  rwa [ClassIndex.leaveOut_eq_self hstub] at hstart

/-- The sources of the other classes have the same imports. -/
theorem LeavesOut.importsOf_eq (h : r.LeavesOut i configDirectory k files files') {ix : ClassIndex}
    (hix : r.loadIndex i files = .ok ix) : ∀ c ∈ (ix.leaveOut k).classes,
      (⟨ix.leaveOut k, files'⟩ : Codebase).importsOf c = (⟨ix.leaveOut k, files⟩ : Codebase).importsOf c := by
  intro c hc
  obtain ⟨hc, hk⟩ := ClassIndex.mem_leaveOut.mp hc
  have hfile := h.sources ix hix c hc hk
  simp only [Codebase.importsOf, Codebase.sourceText]
  cases hpath : c.file with
  | none => rfl
  | some path => rw [Option.bind_some, Option.bind_some, hfile path hpath]

end Readers

/-! ### Documenting all classes -/

namespace Codebase

/-- What a run gets for one class. -/
def answer (cb : Codebase) (filter : MemberFilter) (name : Text) : Except RunError ClassDoc :=
  (cb.document filter.accepts name).mapError (RunError.undocumented name)

theorem collect_eq (cb : Codebase) (filter : MemberFilter) (names : List Text) :
    collect cb filter names = (names.mapM (answer cb filter)).map (List.filter (!·.hasIgnoreTag)) := by
  have hanswers : (cb.documentEach filter.accepts [] names).1 = names.map (cb.document filter.accepts) :=
    documentEach_answers names (Session.valid_start cb)
  have hzip : ((names.zip (names.map (cb.document filter.accepts))).mapM fun pair =>
      pair.2.mapError (RunError.undocumented pair.1)) = names.mapM (answer cb filter) := by
    clear hanswers
    induction names with
    | nil => rfl
    | cons name names ih => rw [List.map_cons, List.zip_cons_cons, List.mapM_cons, List.mapM_cons, ih, answer]
  change ((names.zip (cb.documentEach filter.accepts [] names).1).mapM fun pair =>
      pair.2.mapError (RunError.undocumented pair.1)) >>= (fun docs => pure (docs.filter (!·.hasIgnoreTag))) = _
  rw [hanswers, hzip]
  cases names.mapM (answer cb filter) <;> rfl

theorem map_filter_cons {β ε : Type} (q : β → Bool) (b : β) (result : Except ε (List β)) :
    (result >>= fun bs => pure (b :: bs)).map (List.filter q) =
      (result.map (List.filter q)).map fun bs => if q b then b :: bs else bs := by
  cases result with
  | error e => rfl
  | ok bs => exact congrArg Except.ok List.filter_cons

/-- Hidden results may be computed or not, if none of them fails. -/
theorem mapM_filter_of_hidden {α β ε : Type} {f g : α → Except ε β} {p : α → Bool} {q : β → Bool} {as : List α}
    (hkept : ∀ a ∈ as, p a = true → g a = f a)
    (hhidden : ∀ a ∈ as, p a = false → ∃ b, f a = .ok b ∧ q b = false) :
    ((as.filter p).mapM g).map (List.filter q) = (as.mapM f).map (List.filter q) := by
  induction as with
  | nil => rfl
  | cons a as ih =>
      obtain ⟨hk, hkept⟩ := List.forall_mem_cons.mp hkept
      obtain ⟨hh, hhidden⟩ := List.forall_mem_cons.mp hhidden
      have hrest := ih hkept hhidden
      cases hp : p a with
      | true =>
          rw [List.filter_cons_of_pos hp, List.mapM_cons, List.mapM_cons, hk hp]
          cases f a with
          | error e => rfl
          | ok b =>
              refine (map_filter_cons q b _).trans (Eq.trans ?_ (map_filter_cons q b _).symm)
              rw [hrest]
      | false =>
          obtain ⟨b, hb, hq⟩ := hh hp
          rw [List.filter_cons_of_neg (by simp [hp]), List.mapM_cons, hb, hrest]
          refine Eq.trans ?_ (map_filter_cons q b _).symm
          rw [hq]
          cases as.mapM f <;> rfl

theorem answer_eq_ok_iff {cb : Codebase} {filter : MemberFilter} {name : Text} {doc : ClassDoc} :
    answer cb filter name = .ok doc ↔ cb.document filter.accepts name = .ok doc := by
  unfold answer
  cases cb.document filter.accepts name <;> simp [Except.mapError]

section Collect

variable {ix : ClassIndex} {files files' : FileTree} {filter : MemberFilter} {c : ClassDecl} {k : Text}

theorem document_listedName (hc : c ∈ ix.classes) (keep : MethodDecl → Bool) :
    (⟨ix, files⟩ : Codebase).document keep (ClassIndex.listedName c) =
      (⟨ix, files⟩ : Codebase).document keep c.name := by
  have hlisted : (⟨ix, files⟩ : Codebase).index.find? (ClassIndex.listedName c) = some c :=
    ClassIndex.find?_listedName hc
  have hname : (⟨ix, files⟩ : Codebase).index.find? c.name = some c := ClassIndex.find?_name_of_mem hc
  rw [document_known hlisted, document_known hname]

theorem hasIgnoreTag_of_document {keep : MethodDecl → Bool} {doc : ClassDoc} (hc : c ∈ ix.classes)
    (h : (⟨ix, files⟩ : Codebase).document keep c.name = .ok doc) :
    doc.hasIgnoreTag = (classHeader c).hasIgnoreTag := by
  have hname : (⟨ix, files⟩ : Codebase).index.find? c.name = some c := ClassIndex.find?_name_of_mem hc
  rw [document_known hname] at h
  obtain ⟨methods, _, rfl⟩ := buildClass_eq_ok_iff.mp h
  dsimp only

/-- An ignored class that can be documented may be left out. -/
theorem collect_leaveOut (hides : ix.Hides k)
    (himports : ∀ c ∈ (ix.leaveOut k).classes,
      (⟨ix.leaveOut k, files'⟩ : Codebase).importsOf c = (⟨ix.leaveOut k, files⟩ : Codebase).importsOf c)
    (hdoc : ∀ c ∈ ix.classes, c.key = k →
      ∃ doc, (⟨ix, files⟩ : Codebase).document filter.accepts c.name = .ok doc) :
    collect ⟨ix.leaveOut k, files'⟩ filter (ix.leaveOut k).documentable =
      collect ⟨ix, files⟩ filter ix.documentable := by
  have hkept : ∀ name ∈ ix.documentable, (ClassName.key name != k) = true →
      answer ⟨ix.leaveOut k, files'⟩ filter name = answer ⟨ix, files⟩ filter name := by
    intro name _ hk
    have hother : (⟨ix.leaveOut k, files⟩ : Codebase).document filter.accepts name =
        (⟨ix, files⟩ : Codebase).document filter.accepts name :=
      document_leaveOut hides.isBuiltin hides.others (by simpa using hk)
    rw [answer, document_congr_files himports, hother, ← answer]
  have hhidden : ∀ name ∈ ix.documentable, (ClassName.key name != k) = false →
      ∃ doc, answer ⟨ix, files⟩ filter name = .ok doc ∧ (!doc.hasIgnoreTag) = false := by
    intro name hname hk
    obtain ⟨c, hc, _, rfl⟩ := ClassIndex.exists_of_mem_documentable hname
    have hkey : c.key = k := by simpa [ClassIndex.key_listedName] using hk
    obtain ⟨doc, hok⟩ := hdoc c hc hkey
    refine ⟨doc, answer_eq_ok_iff.mpr ((document_listedName hc _).trans hok), ?_⟩
    rw [hasIgnoreTag_of_document hc hok, hides.ignored c hc hkey]
    rfl
  rw [collect_eq, collect_eq, ClassIndex.documentable_leaveOut]
  exact mapM_filter_of_hidden hkept hhidden

/-- A class that cannot be documented stops the run, ignored or not. -/
theorem collect_eq_error (hc : c ∈ ix.classes) (hbuiltin : c.isBuiltin = false)
    (hfails : ∀ doc, (⟨ix, files⟩ : Codebase).document filter.accepts c.name ≠ .ok doc) :
    ∃ e, collect ⟨ix, files⟩ filter ix.documentable = .error e := by
  rw [collect_eq]
  cases hall : ix.documentable.mapM (answer ⟨ix, files⟩ filter) with
  | error e => exact ⟨e, rfl⟩
  | ok docs =>
      obtain ⟨doc, _, hok⟩ := exists_mem_of_mapM hall (ClassIndex.listedName_mem_documentable hc hbuiltin)
      rw [answer_eq_ok_iff, document_listedName hc] at hok
      exact absurd hok (hfails doc)

end Collect

end Codebase

/-! ### Runs -/

namespace Readers

variable {r : Readers} {i : Invocation} {files files' : FileTree} {configDirectory k : Text}

section Stages

variable {settings : Settings} {ix : ClassIndex} {filter : MemberFilter}

theorem run_of_settings_error {e : SettingsError}
    (hset : r.settings.load files configDirectory i.settingsPath = .error e) :
    r.run i files configDirectory = .error (.settings e) := by
  rw [run, hset]
  rfl

theorem run_of_index_error {e : RunError} (hset : r.settings.load files configDirectory i.settingsPath = .ok settings)
    (hix : r.loadIndex i files = .error e) : r.run i files configDirectory = .error e := by
  rw [run, hset, hix]
  rfl

theorem run_of_filter_none (hset : r.settings.load files configDirectory i.settingsPath = .ok settings)
    (hix : r.loadIndex i files = .ok ix) (hfilter : r.patterns.memberFilter? (i.override settings) = none) :
    r.run i files configDirectory = .error .pattern := by
  simp only [run, hset, hix, hfilter, Except.mapError, bind, Except.bind]
  rfl

theorem run_eq_collect (hall : i.classes = [])
    (hset : r.settings.load files configDirectory i.settingsPath = .ok settings) (hix : r.loadIndex i files = .ok ix)
    (hfilter : r.patterns.memberFilter? (i.override settings) = some filter) :
    r.run i files configDirectory = (Codebase.collect ⟨ix, files⟩ filter ix.documentable).map
      ((i.override settings).format.print (i.override settings).pageOptions) := by
  simp only [run, hset, hix, hfilter, hall, Except.mapError, bind, Except.bind, List.isEmpty_nil, if_true]
  cases Codebase.collect ⟨ix, files⟩ filter ix.documentable <;> rfl

end Stages

section Run

variable (hall : i.classes = []) (hstub : k ∉ ClassIndex.withBuiltins.keys)
  (hleft : r.LeavesOut i configDirectory k files files') (hhides : ∀ ix, r.loadIndex i files = .ok ix → ix.Hides k)

include hall hhides

theorem run_of_not_canDocument (h : ¬ r.CanDocument i configDirectory k files) :
    ∃ e, r.run i files configDirectory = .error e := by
  simp only [CanDocument, not_forall, not_exists] at h
  obtain ⟨settings, ix, filter, hset, hix, hfilter, c, hc, hkey, hfails⟩ := h
  obtain ⟨e, he⟩ := Codebase.collect_eq_error hc ((hhides ix hix).isBuiltin c hc hkey) hfails
  exact ⟨e, by rw [run_eq_collect hall hset hix hfilter, he]; rfl⟩

include hstub hleft

theorem run_of_canDocument (h : r.CanDocument i configDirectory k files) :
    r.run i files' configDirectory = r.run i files configDirectory := by
  have hindex := loadIndex_leavesOut hstub hleft
  have hsettings := hleft.settings
  cases hset : r.settings.load files configDirectory i.settingsPath with
  | error e => rw [run_of_settings_error (hsettings.trans hset), run_of_settings_error hset]
  | ok settings =>
      cases hix : r.loadIndex i files with
      | error e =>
          rw [hix] at hindex
          rw [run_of_index_error (hsettings.trans hset) hindex, run_of_index_error hset hix]
      | ok ix =>
          rw [hix] at hindex
          cases hfilter : r.patterns.memberFilter? (i.override settings) with
          | none =>
              rw [run_of_filter_none (hsettings.trans hset) hindex hfilter, run_of_filter_none hset hix hfilter]
          | some filter =>
              have hcan := h settings ix filter hset hix hfilter
              rw [run_eq_collect hall (hsettings.trans hset) hindex hfilter, run_eq_collect hall hset hix hfilter,
                Codebase.collect_leaveOut (hhides ix hix) (hleft.importsOf_eq hix) hcan]

end Run

/-- A class whose members document themselves can always be documented. -/
theorem canDocument_of_not_inherits
    (h : ∀ ix, r.loadIndex i files = .ok ix → ∀ c ∈ ix.classes, c.key = k →
      ∀ d ∈ members keepAll c, d.inheritsDoc c = false) :
    r.CanDocument i configDirectory k files := by
  intro settings ix filter _ hix _ c hc hkey
  have hname : (⟨ix, files⟩ : Codebase).index.find? c.name = some c := ClassIndex.find?_name_of_mem hc
  have hmethods : ∀ d ∈ members filter.accepts c, ∃ doc,
      buildMethod ⟨ix, files⟩ ((⟨ix, files⟩ : Codebase).resolve [c.key]) c d = .ok doc := by
    intro d hd
    refine ⟨Codebase.describe ⟨ix, files⟩ c d, ?_⟩
    rw [buildMethod, h ix hix c hc hkey d (members_subset _ _ d hd)]
    rfl
  obtain ⟨docs, hdocs⟩ := exists_mapM_eq_ok_iff.mpr hmethods
  rw [Codebase.document_known hname]
  exact ⟨_, buildClass_eq_ok_iff.mpr ⟨docs, mapM_eq_ok_iff.mp hdocs, rfl⟩⟩

theorem runArgs_of_ok {args : List Text} {text : Text} (hargs : r.arguments args = some i)
    (hrun : r.run i files configDirectory = .ok text) : r.runArgs args files configDirectory = .printed text := by
  simp only [runArgs, hargs, hrun]

theorem runArgs_of_error {args : List Text} {e : RunError} (hargs : r.arguments args = some i)
    (hrun : r.run i files configDirectory = .error e) : r.runArgs args files configDirectory = .failed e := by
  simp only [runArgs, hargs, hrun]

/-- **An ignored class is skipped if it can be documented.**  Then a run over all classes ends as it does on the
same documents without the class.  If it cannot be documented, the run fails.  So exit code and output are the same
exactly if the class can be documented, or if the run fails without it as well. -/
theorem runArgs_ignored_class {args : List Text} (hargs : r.arguments args = some i) (hall : i.classes = [])
    (hstub : k ∉ ClassIndex.withBuiltins.keys) (hleft : r.LeavesOut i configDirectory k files files')
    (hhides : ∀ ix, r.loadIndex i files = .ok ix → ix.Hides k) :
    let outcome := r.runArgs args files configDirectory
    let without := r.runArgs args files' configDirectory
    (r.CanDocument i configDirectory k files → outcome = without) ∧
    (¬ r.CanDocument i configDirectory k files → outcome.exitCode = 1 ∧ outcome.output = []) ∧
    (outcome.exitCode = without.exitCode ∧ outcome.output = without.output ↔
      r.CanDocument i configDirectory k files ∨ without.exitCode ≠ 0) := by
  intro outcome without
  have hsame : r.CanDocument i configDirectory k files → outcome = without := by
    intro h
    have hrun := run_of_canDocument hall hstub hleft hhides h
    simp only [outcome, without, runArgs, hargs, hrun]
  have hfails : ¬ r.CanDocument i configDirectory k files → outcome.exitCode = 1 ∧ outcome.output = [] := by
    intro h
    obtain ⟨e, he⟩ := run_of_not_canDocument hall hhides h
    rw [show outcome = .failed e from runArgs_of_error hargs he]
    exact ⟨rfl, rfl⟩
  refine ⟨hsame, hfails, ?_⟩
  by_cases h : r.CanDocument i configDirectory k files
  · rw [hsame h]
    exact iff_of_true ⟨rfl, rfl⟩ (.inl h)
  · obtain ⟨hcode, houtput⟩ := hfails h
    rw [hcode, houtput, or_iff_right h]
    cases hrun : r.run i files' configDirectory with
    | ok text =>
        rw [show without = .printed text from runArgs_of_ok hargs hrun]
        simp [Outcome.exitCode]
    | error e =>
        rw [show without = .failed e from runArgs_of_error hargs hrun]
        simp [Outcome.exitCode, Outcome.output]

end Readers

/-! ### A hidden class beside a shown one -/

namespace Hidden

open Readers

/-- An ignored class with one method. -/
def hidden (comment : Option Text) : ClassDecl :=
  { name := "Hidden", comment := some "/** @ignore */", methods := [{ name := "run", comment }] }

def shown : ClassDecl :=
  { name := "Shown" }

def hiddenText : String :=
  "[\x7b\"name\":\"Hidden\",\"doc_comment\":\"/** @ignore */\",\"methods\":[\x7b\"name\":\"run\"\x7d]\x7d,\x7b\"name\":\"Shown\"\x7d]"

/-- The method inherits what nobody documents. -/
def orphanText : String :=
  "[\x7b\"name\":\"Hidden\",\"doc_comment\":\"/** @ignore */\",\"methods\":[\x7b\"name\":\"run\",\"doc_comment\":\"/** \x7b@inheritDoc\x7d */\"\x7d]\x7d,\x7b\"name\":\"Shown\"\x7d]"

def shownText : String :=
  "[\x7b\"name\":\"Shown\"\x7d]"

/-- One document with the given text. -/
def files (text : Text) : FileTree :=
  ⟨fun path => if path = "a.json" then .ok text else .error .missing⟩

/-- The run over this document. -/
def invocation : Invocation :=
  { documents := ["a.json"] }

theorem arguments_eq : program.arguments ["a.json"] = some invocation := by
  decide +kernel

theorem load_settings (text : Text) : program.settings.load (files text) "home/.config" none = .ok {} :=
  rfl

theorem listOfText?_hiddenText : ClassDecl.listOfText? hiddenText = some [hidden none, shown] := by
  -- Evaluation would decode the bytes of the literal one by one.
  rw [hiddenText, String.toList_ofList]
  decide +kernel

theorem listOfText?_orphanText :
    ClassDecl.listOfText? orphanText = some [hidden (some "/** \x7b@inheritDoc\x7d */"), shown] := by
  rw [orphanText, String.toList_ofList]
  decide +kernel

theorem listOfText?_shownText : ClassDecl.listOfText? shownText = some [shown] := by
  decide +kernel

theorem nodup_index (comment : Option Text) :
    ((ClassIndex.builtinClasses ++ [hidden comment, shown]).map ClassDecl.key).Nodup := by
  have hnone : ((ClassIndex.builtinClasses ++ [hidden none, shown]).map ClassDecl.key).Nodup := by
    decide +kernel
  rw [List.map_append] at hnone ⊢
  exact hnone

/-- The index of the built-in classes, the hidden one and the shown one. -/
def index (comment : Option Text) : ClassIndex :=
  ⟨ClassIndex.builtinClasses ++ [hidden comment, shown], nodup_index comment⟩

/-- A class with no source and no relatives. -/
structure IsBare (c : ClassDecl) : Prop where
  file : c.file = none
  parentName? : c.parentName? = none
  interfaceNames : c.interfaceNames = []

theorem bare_of_mem_index (comment : Option Text) : ∀ c ∈ (index comment).classes, IsBare c := by
  refine List.forall_mem_append.mpr ⟨fun c hc => ?_, ?_⟩
  · obtain ⟨_, _, rfl⟩ := List.mem_map.mp hc
    exact ⟨rfl, rfl, rfl⟩
  · have hhidden : IsBare (hidden comment) := ⟨rfl, rfl, rfl⟩
    have hshown : IsBare shown := ⟨rfl, rfl, rfl⟩
    exact List.forall_mem_cons.mpr ⟨hhidden, List.forall_mem_singleton.mpr hshown⟩

theorem eq_hidden_of_mem_index {comment : Option Text} {c : ClassDecl} (hc : c ∈ (index comment).classes)
    (hk : c.key = "hidden") : c = hidden comment :=
  List.inj_on_of_nodup_map (index comment).distinct hc (List.mem_append_right _ List.mem_cons_self) hk

theorem classes_withBuiltins : ClassIndex.withBuiltins.classes = ClassIndex.builtinClasses := by
  refine ClassIndex.classes_insertAll_of_nodup ?_
  exact ((List.sublist_append_left _ _).map _).nodup (nodup_index none)

theorem hidden_notMem_builtins : ("hidden" : Text) ∉ ClassIndex.withBuiltins.keys := by
  have hnodup := nodup_index none
  rw [List.map_append, List.nodup_append] at hnodup
  rw [ClassIndex.keys, classes_withBuiltins]
  exact fun hmem => hnodup.2.2 _ hmem _ List.mem_cons_self rfl

theorem loadIndex_files {text : Text} {comment : Option Text}
    (h : ClassDecl.listOfText? text = some [hidden comment, shown]) :
    program.loadIndex invocation (files text) = .ok (index comment) := by
  have hread : (files text).read "a.json" = .ok text := rfl
  have hindex : ClassIndex.withBuiltins.insertAll [hidden comment, shown] = index comment := by
    refine ClassIndex.eq_of_classes_eq ?_
    rw [ClassIndex.classes_insertAll_of_nodup, classes_withBuiltins]
    · rfl
    · rw [classes_withBuiltins]
      exact nodup_index comment
  rw [loadIndex, invocation, List.foldlM_cons, addDocument_of_ok hread, show program.documents text = _ from h,
    ← hindex]
  rfl

theorem documentable_index (comment : Option Text) :
    (index comment).documentable = ["Hidden".toList, "Shown".toList] := by
  have hnames : ((index comment).classes.filter fun c => !c.isBuiltin).map ClassIndex.listedName =
      ["Hidden".toList, "Shown".toList] := rfl
  change (((index comment).classes.filter fun c => !c.isBuiltin).map ClassIndex.listedName).mergeSort Text.le = _
  rw [hnames]
  exact List.mergeSort_of_pairwise (by decide)

theorem run_files {text : Text} {comment : Option Text}
    (h : ClassDecl.listOfText? text = some [hidden comment, shown]) :
    program.run invocation (files text) "home/.config" =
      (Codebase.collect ⟨index comment, files text⟩ ⟨[], none⟩ ["Hidden", "Shown"]).map
        (Format.print .markdown ({} : Settings).pageOptions) := by
  rw [run_eq_collect rfl (load_settings text) (loadIndex_files h) rfl, documentable_index]
  rfl

theorem leavesOut {text : Text} {comment : Option Text}
    (h : ClassDecl.listOfText? text = some [hidden comment, shown]) :
    program.LeavesOut invocation "home/.config" "hidden" (files text) (files shownText) where
  documents := by
    have hlist : ClassDecl.listOfText? shownText =
        (ClassDecl.listOfText? text).map (ClassIndex.without · "hidden") := by
      rw [listOfText?_shownText, h]
      rfl
    intro path hpath
    rw [List.mem_singleton.mp hpath]
    exact congrArg Except.ok hlist
  settings := (load_settings shownText).trans (load_settings text).symm
  sources := by
    intro ix hix c hc _ path hpath
    rw [loadIndex_files h] at hix
    cases hix
    rw [(bare_of_mem_index comment c hc).file] at hpath
    cases hpath

theorem hides (comment : Option Text) : (index comment).Hides "hidden" := by
  refine ⟨fun c hc hk => ?_, fun c hc hk => ?_, fun c hc _ n hn => ?_⟩
  · rw [eq_hidden_of_mem_index hc hk]
    rfl
  · -- the header does not depend on the comment of the method
    have htag : (classHeader (hidden none)).hasIgnoreTag = true := by decide
    rw [eq_hidden_of_mem_index hc hk]
    exact htag
  · have hbare := bare_of_mem_index comment c hc
    rw [hbare.parentName?, hbare.interfaceNames] at hn
    simp at hn

theorem hides_of_loadIndex {text : Text} {comment : Option Text}
    (h : ClassDecl.listOfText? text = some [hidden comment, shown]) (ix : ClassIndex)
    (hix : program.loadIndex invocation (files text) = .ok ix) : ix.Hides "hidden" := by
  rw [loadIndex_files h] at hix
  cases hix
  exact hides comment

theorem canDocument : program.CanDocument invocation "home/.config" "hidden" (files hiddenText) := by
  refine canDocument_of_not_inherits fun ix hix c hc hk => ?_
  rw [loadIndex_files listOfText?_hiddenText] at hix
  cases hix
  rw [eq_hidden_of_mem_index hc hk]
  decide

def page : String :=
  "<a name=\"class-shown\"></a>\n### Class: Shown\n\n| Visibility | Function |\n|:-----------|:---------|\n"

theorem run_hiddenText : program.run invocation (files hiddenText) "home/.config" = .ok page := by
  have hpage : ((Codebase.collect ⟨index none, files hiddenText⟩ ⟨[], none⟩ ["Hidden", "Shown"]).map
      (Format.print .markdown ({} : Settings).pageOptions)).toOption = some page := by
    rw [page, String.toList_ofList]
    decide +kernel
  rw [run_files listOfText?_hiddenText]
  revert hpage
  cases Codebase.collect ⟨index none, files hiddenText⟩ ⟨[], none⟩ ["Hidden", "Shown"] with
  | error e => simp [Except.map, Except.toOption]
  | ok docs => simp [Except.map, Except.toOption]

theorem run_orphanText : program.run invocation (files orphanText) "home/.config" =
    .error (.undocumented "Hidden" (.noDonor "\\Hidden" "run")) := by
  have hcollect : (match Codebase.collect ⟨index (some "/** \x7b@inheritDoc\x7d */"), files orphanText⟩ ⟨[], none⟩
      ["Hidden", "Shown"] with
      | .ok _ => none
      | .error e => some e) = some (.undocumented "Hidden" (.noDonor "\\Hidden" "run")) := by
    decide +kernel
  rw [run_files listOfText?_orphanText]
  revert hcollect
  cases Codebase.collect ⟨index (some "/** \x7b@inheritDoc\x7d */"), files orphanText⟩ ⟨[], none⟩
      ["Hidden", "Shown"] with
  | ok docs => simp
  | error e => simp [Except.map]

theorem run_shownText : program.run invocation (files shownText) "home/.config" = .ok page := by
  rw [run_of_canDocument rfl hidden_notMem_builtins (leavesOut listOfText?_hiddenText)
    (hides_of_loadIndex listOfText?_hiddenText) canDocument, run_hiddenText]

end Hidden

open Hidden Readers

/-- The method of the ignored class documents itself: only the other class is printed. -/
theorem hidden_class_skipped :
    program.CanDocument invocation "home/.config" "hidden" (files hiddenText) ∧
      program.runArgs ["a.json"] (files hiddenText) "home/.config" = .printed page ∧
      program.runArgs ["a.json"] (files hiddenText) "home/.config" =
        program.runArgs ["a.json"] (files shownText) "home/.config" := by
  have hskipped := runArgs_ignored_class arguments_eq rfl hidden_notMem_builtins
    (leavesOut listOfText?_hiddenText) (hides_of_loadIndex listOfText?_hiddenText)
  exact ⟨canDocument, runArgs_of_ok arguments_eq run_hiddenText, hskipped.1 canDocument⟩

/-- The method of the ignored class inherits what nobody documents: the other class is not printed either. -/
theorem hidden_class_stops_run :
    program.arguments ["a.json"] = some invocation ∧ ("hidden" : Text) ∉ ClassIndex.withBuiltins.keys ∧
      program.LeavesOut invocation "home/.config" "hidden" (files orphanText) (files shownText) ∧
      (∀ ix, program.loadIndex invocation (files orphanText) = .ok ix → ix.Hides "hidden") ∧
      program.runArgs ["a.json"] (files orphanText) "home/.config" =
        .failed (.undocumented "Hidden" (.noDonor "\\Hidden" "run")) ∧
      program.runArgs ["a.json"] (files shownText) "home/.config" = .printed page :=
  ⟨arguments_eq, hidden_notMem_builtins, leavesOut listOfText?_orphanText, hides_of_loadIndex listOfText?_orphanText,
    runArgs_of_error arguments_eq run_orphanText, runArgs_of_ok arguments_eq run_shownText⟩

end ApiPages
