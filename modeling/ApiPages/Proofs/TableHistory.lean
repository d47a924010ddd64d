import ApiPages.Page.Table
import ApiPages.Proofs.Distinct
import ApiPages.Proofs.Text

/-! # What a table shows

A table is opened, filled and looked at in any order (`Step`), and each step may give an answer (`Event`).  What the
table shows at the end is a function of the events since it was last opened (`layout`): the rows that were given as
answers, and the examples of the methods that were added.  The invariant `Shows` ties the state of a table to its
events; `Shows.after` is its step and `shows_history` its run. -/

namespace ApiPages

/-! ### Lines of a table -/

theorem Text.flatMap_feed_eq_join {rows : List Text} (h : rows ≠ []) :
    rows.flatMap (· ++ ['\n']) = Text.join ['\n'] rows ++ ['\n'] := by
  induction rows with
  | nil => exact absurd rfl h
  | cons row rows ih =>
      cases rows with
      | nil => simp [Text.join]
      | cons row' rows =>
          rw [List.flatMap_cons, ih (List.cons_ne_nil _ _), Text.join_cons_cons]
          simp only [List.append_assoc]

/-- Trimming lines that have no white space around them only removes the last line feed. -/
theorem Text.trim_flatMap_feed {rows : List Text}
    (h : ∀ row ∈ rows, row ≠ [] ∧ Text.Stripped Text.isBlank row) :
    Text.trim (rows.flatMap (· ++ ['\n'])) = Text.join ['\n'] rows := by
  by_cases hrows : rows = []
  · rw [hrows]
    rfl
  · unfold Text.trim
    rw [Text.flatMap_feed_eq_join hrows, Text.strip_concat_of_pos (by decide)]
    exact (Text.stripped_join h).strip_eq

namespace Table

/-- A line that begins and ends with a bar has no white space around it. -/
theorem ne_nil_and_stripped_of_bars {line : Text} (hhead : line.head? = some '|') (hlast : line.getLast? = some '|') :
    line ≠ [] ∧ Text.Stripped Text.isBlank line := by
  refine ⟨?_, ⟨?_, ?_⟩⟩
  · rintro rfl
    cases hhead
  · intro c hc
    rw [hhead] at hc
    cases hc
    decide
  · intro c hc
    rw [hlast] at hc
    cases hc
    decide

theorem row_ne_nil_and_stripped (declareAbstract includeSee : Bool) (m : MethodDoc) :
    row declareAbstract includeSee m ≠ [] ∧ Text.Stripped Text.isBlank (row declareAbstract includeSee m) := by
  apply ne_nil_and_stripped_of_bars
  · simp only [row, List.append_assoc]
    rfl
  · rw [row, List.getLast?_append_of_ne_nil _ (by decide)]
    rfl

theorem heading_ne_nil_and_stripped : ∀ line ∈ heading, line ≠ [] ∧ Text.Stripped Text.isBlank line := by
  have hends : ∀ line ∈ heading, line.head? = some '|' ∧ line.getLast? = some '|' := by decide
  intro line hline
  exact ne_nil_and_stripped_of_bars (hends line hline).1 (hends line hline).2

/-! ### Steps and their answers -/

/-- What can be done with a table. -/
inductive Step where
  | reopen
  | add (includeSee : Bool) (m : MethodDoc)
  | appendExamples (on : Bool)
  | declareAbstract (on : Bool)
  | render
deriving DecidableEq

/-- The table after a step. -/
def after (t : Table) : Step → Table
  | .reopen => t.reopen
  | .add includeSee m => t.add includeSee m
  | .appendExamples on => { t with appendExamples := on }
  | .declareAbstract on => { t with declareAbstract := on }
  | .render => t

/-- What a step gives: the row of a method that is added, or the text of the table. -/
def answer? (t : Table) : Step → Option Text
  | .add includeSee m => some (t.rowOf includeSee m)
  | .render => some t.render
  | _ => none

/-- A step with its answer. -/
structure Event where
  step : Step
  answer : Option Text

def afterAll (t : Table) (steps : List Step) : Table :=
  steps.foldl after t

/-- The events of a table to which steps are done. -/
def history (t : Table) : List Step → List Event
  | [] => []
  | step :: steps => ⟨step, t.answer? step⟩ :: history (t.after step) steps

variable {t : Table} {events : List Event}

theorem afterAll_concat (t : Table) (steps : List Step) (step : Step) :
    t.afterAll (steps ++ [step]) = (t.afterAll steps).after step :=
  List.foldl_append

theorem afterAll_append_reopen (t : Table) (before since : List Step) :
    t.afterAll (before ++ .reopen :: since) = (t.afterAll before).reopen.afterAll since :=
  List.foldl_append

theorem history_append (t : Table) (steps steps' : List Step) :
    t.history (steps ++ steps') = t.history steps ++ (t.afterAll steps).history steps' := by
  induction steps generalizing t with
  | nil => rfl
  | cons step steps ih =>
      rw [List.cons_append, history, ih]
      rfl

theorem map_step_history (t : Table) (steps : List Step) : (t.history steps).map Event.step = steps := by
  induction steps generalizing t with
  | nil => rfl
  | cons step steps ih => rw [history, List.map_cons, ih]

theorem length_history (t : Table) (steps : List Step) : (t.history steps).length = steps.length := by
  rw [← List.length_map Event.step, map_step_history]

/-! ### Switches -/

/-- The value that a switch was set to last; both switches are on at first. -/
def lastSet (setting? : Step → Option Bool) (steps : List Step) : Bool :=
  (steps.reverse.findSome? setting?).getD true

/-- Whether examples are added below the table after some steps. -/
def appendsAfter : List Step → Bool :=
  lastSet fun
    | .appendExamples on => some on
    | _ => none

/-- Whether abstract methods are marked after some steps. -/
def declaresAfter : List Step → Bool :=
  lastSet fun
    | .declareAbstract on => some on
    | _ => none

theorem lastSet_concat (setting? : Step → Option Bool) (steps : List Step) (step : Step) :
    lastSet setting? (steps ++ [step]) = (setting? step).getD (lastSet setting? steps) := by
  unfold lastSet
  rw [List.reverse_concat, List.findSome?_cons]
  cases setting? step <;> rfl

/-- A switch that each step sets or keeps has the value that it was set to last. -/
theorem switch_afterAll {switch : Table → Bool} {setting? : Step → Option Bool} (hstart : switch {} = true)
    (hstep : ∀ t step, switch (after t step) = (setting? step).getD (switch t)) (steps : List Step) :
    switch (afterAll {} steps) = lastSet setting? steps := by
  induction steps using List.reverseRecOn with
  | nil => exact hstart
  | append_singleton steps step ih => rw [afterAll_concat, hstep, ih, lastSet_concat]

theorem appendExamples_afterAll (steps : List Step) :
    (afterAll {} steps).appendExamples = appendsAfter steps := by
  refine switch_afterAll rfl (fun t step => ?_) steps
  cases step <;> rfl

theorem declareAbstract_afterAll (steps : List Step) :
    (afterAll {} steps).declareAbstract = declaresAfter steps := by
  refine switch_afterAll rfl (fun t step => ?_) steps
  cases step <;> rfl

/-! ### What is shown -/

/-- The events since the table was last opened. -/
def sinceReopen (events : List Event) : List Event :=
  events.rtakeWhile fun e => e.step ≠ .reopen

/-- A method that was added, with the row that was given for it. -/
def Event.addition? : Event → Option (MethodDoc × Text)
  | ⟨.add _ m, some row⟩ => some (m, row)
  | _ => none

/-- The methods added since the table was last opened. -/
def additions (events : List Event) : List (MethodDoc × Text) :=
  (sinceReopen events).filterMap Event.addition?

/-- The name of a method and its example, if it has one. -/
def example? (m : MethodDoc) : Option (Text × Text) :=
  if m.exampleText.isEmpty then none else some (m.name, m.exampleText)

/-- The last example of each name, in the order in which the names first had one. -/
def examplesOf (added : List (MethodDoc × Text)) : List (Text × Text) :=
  lastOfEach Prod.fst ((added.map Prod.fst).filterMap example?)

/-- The class of the last method added. -/
def classOf (added : List (MethodDoc × Text)) : Text :=
  added.getLast?.elim [] (·.1.className)

/-- A table of the given heading and methods. -/
def layout (top : List Text) (added : List (MethodDoc × Text)) (appendExamples : Bool) : Text :=
  Text.join ['\n'] (top ++ added.map Prod.snd) ++
    if appendExamples then (examplesOf added).flatMap (renderExample (classOf added)) else []

theorem additions_concat_reopen (events : List Event) (answer : Option Text) :
    additions (events ++ [⟨.reopen, answer⟩]) = [] := by
  simp [additions, sinceReopen]

theorem additions_concat {e : Event} (he : e.step ≠ .reopen) (events : List Event) :
    additions (events ++ [e]) = additions events ++ e.addition?.toList := by
  unfold additions sinceReopen
  rw [List.rtakeWhile_concat, if_pos (by simpa using he), List.filterMap_append]
  cases h : e.addition? <;> simp [h]

theorem reopen_mem_concat {e : Event} (he : e.step ≠ .reopen) (events : List Event) :
    Step.reopen ∈ (events ++ [e]).map Event.step ↔ Step.reopen ∈ events.map Event.step := by
  simp [Ne.symm he]

theorem examplesOf_concat (added : List (MethodDoc × Text)) (m : MethodDoc) (row : Text) :
    examplesOf (added ++ [(m, row)]) =
      if m.exampleText.isEmpty then examplesOf added else upsertExample m.name m.exampleText (examplesOf added) := by
  unfold examplesOf
  rw [List.map_append, List.map_singleton, List.filterMap_append]
  by_cases hm : m.exampleText.isEmpty = true
  · have hnone : example? m = none := if_pos hm
    rw [if_pos hm, List.filterMap_cons_none hnone, List.filterMap_nil, List.append_nil]
  · have hsome : example? m = some (m.name, m.exampleText) := if_neg hm
    rw [if_neg hm, List.filterMap_cons_some hsome, List.filterMap_nil, lastOfEach_concat, upsertExample]

/-! ### The invariant -/

/-- The lines and examples of a table are those of its events.  Opening a table keeps its class, so that the class is
that of the events only once a method was added. -/
structure Shows (t : Table) (events : List Event) : Prop where
  lines : t.lines = (if Step.reopen ∈ events.map Event.step then heading else []) ++ (additions events).map Prod.snd
  examples : t.examples = examplesOf (additions events)
  className : additions events ≠ [] → t.className = classOf (additions events)
  rows : ∀ a ∈ additions events, ∃ declareAbstract includeSee, a.2 = row declareAbstract includeSee a.1

theorem shows_start : Shows {} [] where
  lines := rfl
  examples := rfl
  className h := absurd rfl h
  rows := List.forall_mem_nil _

/-- A step that is not about rows keeps what is shown. -/
theorem Shows.keep {t' : Table} {e : Event} (h : Shows t events) (he : e.step ≠ .reopen) (hadd : e.addition? = none)
    (hlines : t'.lines = t.lines) (hexamples : t'.examples = t.examples) (hclass : t'.className = t.className) :
    Shows t' (events ++ [e]) := by
  have hsame : additions (events ++ [e]) = additions events := by
    rw [additions_concat he, hadd, Option.toList_none, List.append_nil]
  constructor
  · rw [hlines, h.lines, hsame]
    simp only [reopen_mem_concat he]
  · rw [hexamples, h.examples, hsame]
  · rw [hclass, hsame]
    exact h.className
  · rw [hsame]
    exact h.rows

theorem Shows.add (h : Shows t events) (includeSee : Bool) (m : MethodDoc) :
    Shows (t.add includeSee m) (events ++ [⟨.add includeSee m, some (t.rowOf includeSee m)⟩]) := by
  set e : Event := ⟨.add includeSee m, some (t.rowOf includeSee m)⟩ with he
  have hnew : additions (events ++ [e]) = additions events ++ [(m, t.rowOf includeSee m)] :=
    additions_concat (by simp [he]) events
  constructor
  · have hlines : (t.add includeSee m).lines = t.lines ++ [t.rowOf includeSee m] := rfl
    have hopen := reopen_mem_concat (e := e) (by simp [he]) events
    rw [hlines, h.lines, hnew]
    simp only [hopen]
    rw [List.map_append, List.append_assoc]
    rfl
  · rw [hnew, examplesOf_concat, ← h.examples]
    rfl
  · intro _
    rw [hnew, classOf, List.getLast?_concat]
    rfl
  · rw [hnew]
    intro a ha
    rcases List.mem_append.mp ha with ha | ha
    · exact h.rows a ha
    · rw [List.mem_singleton] at ha
      rw [ha]
      exact ⟨t.declareAbstract, includeSee, rfl⟩

theorem Shows.reopen (t : Table) (events : List Event) : Shows t.reopen (events ++ [⟨.reopen, none⟩]) := by
  constructor
  · rw [additions_concat_reopen]
    simp [Table.reopen]
  · rw [additions_concat_reopen]
    rfl
  · rw [additions_concat_reopen]
    exact absurd rfl
  · rw [additions_concat_reopen]
    exact List.forall_mem_nil _

theorem Shows.after (h : Shows t events) (step : Step) :
    Shows (t.after step) (events ++ [⟨step, t.answer? step⟩]) := by
  cases step with
  | reopen => exact Shows.reopen t events
  | add includeSee m => exact h.add includeSee m
  | appendExamples on => exact h.keep (by simp) rfl rfl rfl rfl
  | declareAbstract on => exact h.keep (by simp) rfl rfl rfl rfl
  | render => exact h.keep (by simp) rfl rfl rfl rfl

theorem shows_history (steps : List Step) : Shows (afterAll {} steps) (history {} steps) := by
  induction steps using List.reverseRecOn with
  | nil => exact shows_start
  | append_singleton steps step ih =>
      rw [afterAll_concat, history_append]
      exact ih.after step

theorem Shows.render_eq (h : Shows t events) :
    t.render = layout (if Step.reopen ∈ events.map Event.step then heading else []) (additions events)
      t.appendExamples := by
  have hlines : ∀ line ∈ t.lines, line ≠ [] ∧ Text.Stripped Text.isBlank line := by
    intro line hline
    rw [h.lines] at hline
    rcases List.mem_append.mp hline with hline | hline
    · split at hline
      · exact heading_ne_nil_and_stripped line hline
      · cases hline
    · obtain ⟨a, ha, rfl⟩ := List.mem_map.mp hline
      obtain ⟨declareAbstract, includeSee, hrow⟩ := h.rows a ha
      rw [hrow]
      exact row_ne_nil_and_stripped declareAbstract includeSee a.1
  -- Without additions the class may be one of before, but then there is no example to show it.
  have hexamples : t.examples.flatMap (renderExample t.className) =
      (examplesOf (additions events)).flatMap (renderExample (classOf (additions events))) := by
    rw [h.examples]
    by_cases hadd : additions events = []
    · rw [hadd]
      rfl
    · rw [h.className hadd]
  rw [Table.render, Text.trim_flatMap_feed hlines, h.lines, hexamples, layout]

/-! ### What is forgotten -/

/-- Two tables that differ at most in a class that no example shows. -/
structure Agree (t t' : Table) : Prop where
  lines : t.lines = t'.lines
  examples : t.examples = t'.examples
  appendExamples : t.appendExamples = t'.appendExamples
  declareAbstract : t.declareAbstract = t'.declareAbstract
  className : t.examples ≠ [] → t.className = t'.className

theorem Agree.after {t t' : Table} (h : Agree t t') (step : Step) : Agree (t.after step) (t'.after step) := by
  obtain ⟨hlines, hexamples, happend, hdeclare, hclass⟩ := h
  cases step with
  | reopen => exact ⟨rfl, rfl, happend, hdeclare, absurd rfl⟩
  | add includeSee m =>
      refine ⟨?_, ?_, happend, hdeclare, fun _ => rfl⟩
      · simp only [Table.after, Table.add, rowOf, hlines, hdeclare]
      · simp only [Table.after, Table.add, hexamples]
  | appendExamples on => exact ⟨hlines, hexamples, rfl, hdeclare, hclass⟩
  | declareAbstract on => exact ⟨hlines, hexamples, happend, rfl, hclass⟩
  | render => exact ⟨hlines, hexamples, happend, hdeclare, hclass⟩

theorem Agree.afterAll {t t' : Table} (h : Agree t t') (steps : List Step) :
    Agree (t.afterAll steps) (t'.afterAll steps) := by
  induction steps generalizing t t' with
  | nil => exact h
  | cons step steps ih => exact ih (h.after step)

theorem Agree.render_eq {t t' : Table} (h : Agree t t') : t.render = t'.render := by
  have hexamples : t.examples.flatMap (renderExample t.className) =
      t'.examples.flatMap (renderExample t'.className) := by
    by_cases he : t.examples = []
    · rw [← h.examples, he]
      rfl
    · rw [h.className he, h.examples]
  rw [Table.render, Table.render, h.lines, h.appendExamples, hexamples]

theorem Agree.reopen {t t' : Table} (happend : t.appendExamples = t'.appendExamples)
    (hdeclare : t.declareAbstract = t'.declareAbstract) : Agree t.reopen t'.reopen :=
  ⟨rfl, rfl, happend, hdeclare, absurd rfl⟩

/-- **A table shows what was added since it was last opened.**  Its heading, if it was ever opened, and the rows that
were given since then are its lines; below them are the last examples of the methods, one for each name, if examples
are on.  A row depends on its method, on whether references are included, and on whether abstract methods were marked
at that moment.  Nothing from before the last opening shows, apart from the two switches. -/
theorem render_afterAll_eq_layout (steps : List Step) :
    (afterAll {} steps).render =
      layout (if Step.reopen ∈ steps then heading else []) (additions (history {} steps)) (appendsAfter steps) ∧
    (∀ before includeSee m later, steps = before ++ .add includeSee m :: later →
      (history {} steps)[before.length]? =
        some ⟨.add includeSee m, some (row (declaresAfter before) includeSee m)⟩) ∧
    ∀ before before' since, steps = before ++ .reopen :: since →
      appendsAfter before = appendsAfter before' → declaresAfter before = declaresAfter before' →
      (afterAll {} steps).render = (afterAll {} (before' ++ .reopen :: since)).render := by
  refine ⟨?_, ?_, ?_⟩
  · have hrender := (shows_history steps).render_eq
    rwa [map_step_history, appendExamples_afterAll] at hrender
  · rintro before includeSee m later rfl
    -- The event stands right after those of the earlier steps.
    have hlength := length_history {} before
    rw [history_append, List.getElem?_append_right (by omega), hlength, Nat.sub_self, ← declareAbstract_afterAll]
    rfl
  · rintro before before' since rfl happend hdeclare
    rw [← appendExamples_afterAll, ← appendExamples_afterAll] at happend
    rw [← declareAbstract_afterAll, ← declareAbstract_afterAll] at hdeclare
    rw [afterAll_append_reopen, afterAll_append_reopen]
    exact ((Agree.reopen happend hdeclare).afterAll since).render_eq

namespace Fleet

/-- A method of a class that is documented first. -/
def sail : MethodDoc := { name := "sail", className := "Sea\\Ship", exampleText := "$ship->sail();" }

/-- An abstract method and another one of its name, each with an example. -/
def drive : MethodDoc :=
  { name := "drive", className := "Road\\Car", isAbstract := true, exampleText := "$car->drive();" }

def drive' : MethodDoc := { drive with className := "Road\\Bus", exampleText := "$bus->drive();" }

/-- A method without an example. -/
def park : MethodDoc := { name := "park", className := "Road\\Bus" }

/-- A table of one class. -/
def before : List Step := [.reopen, .add true sail, .render]

/-- The same table, used for two more classes. -/
def since : List Step := [.add false drive, .declareAbstract false, .add false drive', .add false park]

end Fleet

/-- A table that is used again shows its new rows, the first of them marked as abstract and the second not, and one
example of the two, the last; neither the row nor the example of before shows. -/
theorem fleet_eq_layout :
    (afterAll {} (Fleet.before ++ .reopen :: Fleet.since)).render =
      Text.join ['\n'] (heading ++
        (["| public | <strong>abstract drive()</strong> : <em>void</em> |",
          "| public | <strong>drive()</strong> : <em>void</em> |",
          "| public | <strong>park()</strong> : <em>void</em> |",
          "###### Examples of Bus::drive()", "\x60\x60\x60", "$bus->drive();", "\x60\x60\x60"] : List Text)) ∧
    (history {} (Fleet.before ++ .reopen :: Fleet.since))[4]? =
      some ⟨.add false Fleet.drive, some (row true false Fleet.drive)⟩ ∧
    (afterAll {} (Fleet.before ++ .reopen :: Fleet.since)).render =
      (afterAll {} (.reopen :: Fleet.since)).render := by
  obtain ⟨hrender, hrows, hforget⟩ := render_afterAll_eq_layout (Fleet.before ++ .reopen :: Fleet.since)
  refine ⟨?_, ?_, ?_⟩
  · rw [hrender]
    decide +kernel
  · exact hrows (Fleet.before ++ [.reopen]) false Fleet.drive Fleet.since.tail rfl
  · exact hforget Fleet.before [] Fleet.since rfl rfl rfl

end Table

end ApiPages
