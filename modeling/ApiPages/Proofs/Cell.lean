import Mathlib.Algebra.GroupWithZero.Nat
import Mathlib.Data.List.Perm.Basic
import ApiPages.Page.Table
import ApiPages.Proofs.Replacement

/-! # The row of a method

A cell is made of texts of the method with fixed texts between them (`cell_eq_tidy`).  Whatever the texts are, tidying
changes none of the fixed ones and works on each text alone (`cell_eq`), because no tag that is removed can reach from
one into the other.  So the texts alone decide whether the row is one line of a table with two columns
(`isRow_row_iff`): a bar or a line break in one of them is a bar or a line break of the row. -/

namespace ApiPages

namespace Table

variable {c : Char} {s t l : Text} {pieces : List (Text × Text)} {m : MethodDoc}

/-! ### Bars -/

/-- The number of bars that no backslash escapes. -/
def bars : Text → Nat
  | [] => 0
  | [c] => [c].count '|'
  | c :: d :: s => if c = '\\' then bars s else [c].count '|' + bars (d :: s)

/-- A text that is one row of a table with two columns. -/
structure IsRow (r : Text) : Prop where
  oneLine : Text.OneLine r
  bars_eq : bars r = 3

/-- A text that can stand in a cell as it is. -/
structure Fits (s : Text) : Prop where
  oneLine : Text.OneLine s
  noBar : '|' ∉ s

instance : DecidablePred Fits :=
  fun s => decidable_of_iff (Text.OneLine s ∧ '|' ∉ s) ⟨fun ⟨hone, hbar⟩ => ⟨hone, hbar⟩, fun h => ⟨h.oneLine, h.noBar⟩⟩

theorem Fits.of_subset (h : Fits s) (hsub : ∀ x ∈ t, x ∈ s) : Fits t :=
  ⟨h.oneLine.of_subset hsub, fun hc => h.noBar (hsub _ hc)⟩

theorem bars_cons (hc : c ≠ '\\') (s : Text) : bars (c :: s) = [c].count '|' + bars s := by
  cases s with
  | nil => rfl
  | cons d s => rw [bars, if_neg hc]

theorem bars_cons_of_inert (h : c ≠ '\\' ∧ c ≠ '|') (s : Text) : bars (c :: s) = bars s := by
  rw [bars_cons h.1, List.count_singleton, if_neg (by simpa using h.2), Nat.zero_add]

/-- A character that is neither a bar nor a backslash parts the bars before it from those after it. -/
theorem bars_append_cons (h : c ≠ '\\' ∧ c ≠ '|') (s t : Text) : bars (s ++ c :: t) = bars s + bars t := by
  fun_induction bars s with
  | case1 => rw [List.nil_append, bars_cons_of_inert h, Nat.zero_add]
  | case2 d =>
      rw [List.singleton_append, bars, bars_cons_of_inert h]
      split
      · rename_i hd
        rw [hd]
        exact (Nat.zero_add _).symm
      · rfl
  | case3 d s ih => rw [List.cons_append, List.cons_append, bars, if_pos rfl, ih]
  | case4 d e s hd ih =>
      rw [List.cons_append, List.cons_append, bars, if_neg hd, ← List.cons_append, ih, Nat.add_assoc]

/-- A text without bars and backslashes. -/
def Inert (s : Text) : Prop :=
  ∀ c ∈ s, c ≠ '\\' ∧ c ≠ '|'

instance : DecidablePred Inert :=
  fun s => List.decidableBAll (fun c => c ≠ '\\' ∧ c ≠ '|') s

theorem bars_inert_append (h : Inert l) (s : Text) : bars (l ++ s) = bars s := by
  induction l with
  | nil => rfl
  | cons c l ih =>
      obtain ⟨hc, hl⟩ := List.forall_mem_cons.mp h
      rw [List.cons_append, bars_cons_of_inert hc, ih hl]

theorem bars_eq_zero (h : '|' ∉ s) : bars s = 0 := by
  fun_induction bars s with
  | case1 => rfl
  | case2 d => exact List.count_eq_zero.mpr h
  | case3 d s ih => exact ih fun hs => h (List.mem_cons_of_mem _ (List.mem_cons_of_mem _ hs))
  | case4 d e s hd ih =>
      rw [ih fun hs => h (List.mem_cons_of_mem _ hs), List.count_eq_zero.mpr (by simp_all)]

/-! ### Fixed texts -/

/-- Removes tags that close and open again at once, inside a cell. -/
def joinTags (s : Text) : Text :=
  Text.replaceAll "</strong></strong> " "</strong>" (Text.replaceAll "</strong><strong>" [] s)

theorem tidy_eq (cell : Text) : tidy cell = joinTags (Text.trim cell) :=
  rfl

theorem mem_joinTags_iff (hstrong : c ∉ "</strong><strong>".toList) (hdoubled : c ∉ "</strong></strong> ".toList) :
    c ∈ joinTags s ↔ c ∈ s := by
  constructor
  · intro h
    rcases Text.mem_of_mem_replaceAll (by decide) h with h | h
    · have hsub : "</strong>".toList ⊆ "</strong></strong> ".toList := by decide
      exact absurd (hsub h) hdoubled
    · exact (Text.mem_of_mem_replaceAll (by decide) h).resolve_left List.not_mem_nil
  · intro h
    exact Text.mem_replaceAll (by decide) hdoubled (Text.mem_replaceAll (by decide) hstrong h)

theorem oneLine_joinTags_iff : Text.OneLine (joinTags s) ↔ Text.OneLine s := by
  have hfeed : '\n' ∈ joinTags s ↔ '\n' ∈ s := mem_joinTags_iff (by decide) (by decide)
  have hreturn : '\r' ∈ joinTags s ↔ '\r' ∈ s := mem_joinTags_iff (by decide) (by decide)
  exact ⟨fun h => ⟨mt hfeed.mpr h.noFeed, mt hreturn.mpr h.noReturn⟩,
    fun h => ⟨mt hfeed.mp h.noFeed, mt hreturn.mp h.noReturn⟩⟩

theorem bars_joinTags_eq_zero (h : '|' ∉ s) : bars (joinTags s) = 0 :=
  bars_eq_zero (mt (mem_joinTags_iff (by decide) (by decide)).mp h)

/-- A text that is the same in every row: no tag that is removed can overlap with it, and it has no bars, backslashes
and line breaks. -/
structure Fixed (l : Text) : Prop where
  strong : Text.Parts "</strong><strong>" l
  doubled : Text.Parts "</strong></strong> " l
  oneLine : Text.OneLine l
  inert : Inert l

instance : DecidablePred Fixed :=
  fun l => decidable_of_iff
    (Text.Parts "</strong><strong>" l ∧ Text.Parts "</strong></strong> " l ∧ Text.OneLine l ∧ Inert l)
    ⟨fun ⟨hstrong, hdoubled, hone, hinert⟩ => ⟨hstrong, hdoubled, hone, hinert⟩,
      fun h => ⟨h.strong, h.doubled, h.oneLine, h.inert⟩⟩

theorem Fixed.joinTags_append (h : Fixed l) (s t : Text) : joinTags (s ++ l ++ t) = joinTags s ++ l ++ joinTags t := by
  rw [joinTags, h.strong.replaceAll_append (by decide), h.doubled.replaceAll_append (by decide), joinTags, joinTags]

theorem Fixed.bars_append (h : Fixed l) (s t : Text) : bars (s ++ l ++ t) = bars s + bars t := by
  obtain ⟨x, hx, _⟩ := h.strong.other
  obtain ⟨c, l, rfl⟩ := List.exists_cons_of_ne_nil (List.ne_nil_of_mem hx)
  obtain ⟨hc, hl⟩ := List.forall_mem_cons.mp h.inert
  rw [List.append_assoc, List.cons_append, bars_append_cons hc, bars_inert_append hl]

/-! ### Texts with fixed texts between them -/

/-- The text made of pieces: each is a text and the fixed text after it. -/
def assemble (pieces : List (Text × Text)) : Text :=
  pieces.flatMap fun p => p.1 ++ p.2

theorem assemble_nil : assemble [] = [] :=
  rfl

theorem assemble_cons (p : Text × Text) (pieces : List (Text × Text)) :
    assemble (p :: pieces) = p.1 ++ p.2 ++ assemble pieces :=
  List.flatMap_cons

theorem assemble_append (ps qs : List (Text × Text)) : assemble (ps ++ qs) = assemble ps ++ assemble qs :=
  List.flatMap_append

/-- The texts of a cell are tidied one by one. -/
theorem joinTags_assemble (h : ∀ p ∈ pieces, Fixed p.2) :
    joinTags (assemble pieces) = assemble (pieces.map fun p => (joinTags p.1, p.2)) := by
  induction pieces with
  | nil =>
      rw [assemble, List.flatMap_nil, joinTags, Text.replaceAll_nil, Text.replaceAll_nil]
      rfl
  | cons p pieces ih =>
      obtain ⟨hp, hrest⟩ := List.forall_mem_cons.mp h
      rw [assemble_cons, hp.joinTags_append, ih hrest, List.map_cons, assemble_cons]

theorem bars_assemble (h : ∀ p ∈ pieces, Fixed p.2) :
    bars (assemble pieces) = (pieces.map fun p => bars p.1).sum := by
  induction pieces with
  | nil => rfl
  | cons p pieces ih =>
      obtain ⟨hp, hrest⟩ := List.forall_mem_cons.mp h
      rw [assemble_cons, hp.bars_append, ih hrest, List.map_cons, List.sum_cons]

theorem oneLine_assemble_iff (h : ∀ p ∈ pieces, Fixed p.2) :
    Text.OneLine (assemble pieces) ↔ ∀ p ∈ pieces, Text.OneLine p.1 := by
  induction pieces with
  | nil => exact ⟨fun _ => List.forall_mem_nil _, fun _ => by decide⟩
  | cons p pieces ih =>
      obtain ⟨hp, hrest⟩ := List.forall_mem_cons.mp h
      rw [assemble_cons, Text.oneLine_append_iff, Text.oneLine_append_iff, ih hrest, List.forall_mem_cons,
        and_iff_left hp.oneLine]

/-! ### Cells -/

/-- What stands before the name of a method. -/
def opening (isDeprecated isMarked : Bool) : Text :=
  (if isDeprecated then "<strike>".toList else []) ++ "<strong>".toList ++
    if isMarked then "abstract ".toList else []

/-- A parameter, with what stands between it and the next text. -/
def paramPieces (after : Text) (p : ParamDoc) : List (Text × Text) :=
  (p.type, "</em> <strong>") ::
    match p.default with
    | none => [(p.name, after)]
    | some value => [(p.name, "="), (value, after)]

def paramsPieces : List ParamDoc → List (Text × Text)
  | [] => []
  | [p] => paramPieces "</strong>)</strong> : <em>" p
  | p :: q :: ps => paramPieces "</strong>, <em>" p ++ paramsPieces (q :: ps)

/-- The name of a method with its parameters. -/
def signaturePieces (m : MethodDoc) : List (Text × Text) :=
  let after : Text := if m.params.isEmpty then "()</strong> : <em>" else "(</strong><em>"
  (m.name, after) :: paramsPieces m.params

/-- The return type and the deprecation or the description. -/
def notePieces (after : Text) (m : MethodDoc) : List (Text × Text) :=
  if m.deprecated then
    [(m.returnType, "</em></strike><br /><em>DEPRECATED - "), (m.deprecationMessage, after)]
  else if m.description.isEmpty then [(m.returnType, after)]
  else [(m.returnType, "</em><br /><em>"), (m.description, after)]

def seePieces : List Text → List (Text × Text)
  | [] => []
  | [s] => [(s, "</em>")]
  | s :: t :: ss => (s, ", ") :: seePieces (t :: ss)

/-- The pieces of a cell after its opening. -/
def cellPieces (includeSee : Bool) (m : MethodDoc) : List (Text × Text) :=
  signaturePieces m ++
    if includeSee && !m.see.isEmpty then
      notePieces "</em><br /><em>&nbsp;&nbsp;&nbsp;&nbsp;See: " m ++ seePieces m.see
    else notePieces "</em>" m

theorem assemble_paramPieces (after : Text) (p : ParamDoc) :
    "<em>".toList ++ assemble (paramPieces ("</strong>".toList ++ after) p) = paramCell p ++ after := by
  cases hd : p.default <;> simp [assemble, paramPieces, paramCell, tag, hd]

theorem assemble_paramsPieces (p : ParamDoc) (ps : List ParamDoc) :
    "<em>".toList ++ assemble (paramsPieces (p :: ps)) =
      Text.join ", " ((p :: ps).map paramCell) ++ (")</strong> : ".toList ++ "<em>".toList) := by
  induction ps generalizing p with
  | nil =>
      rw [List.map_singleton, Text.join, List.intercalate_singleton]
      exact assemble_paramPieces (")</strong> : ".toList ++ "<em>".toList) p
  | cons q ps ih =>
      have hp : "<em>".toList ++ assemble (paramPieces "</strong>, <em>" p) =
          paramCell p ++ (", ".toList ++ "<em>".toList) := assemble_paramPieces (", ".toList ++ "<em>".toList) p
      rw [paramsPieces, assemble_append, ← List.append_assoc, hp, List.append_assoc, List.append_assoc, ih,
        List.map_cons, List.map_cons, List.map_cons, Text.join_cons_cons, List.append_assoc, List.append_assoc]

theorem assemble_seePieces (s : Text) (ss : List Text) :
    assemble (seePieces (s :: ss)) = Text.join ", " (s :: ss) ++ "</em>".toList := by
  induction ss generalizing s with
  | nil => rw [seePieces, assemble, List.flatMap_singleton, Text.join, List.intercalate_singleton]
  | cons t ss ih => rw [seePieces, assemble_cons, ih, Text.join_cons_cons, ← List.append_assoc]

theorem tag_em (s : Text) : tag "em" s = "<em>".toList ++ s ++ "</em>".toList := by
  simp [tag]

theorem assemble_signaturePieces (m : MethodDoc) :
    assemble (signaturePieces m) =
      m.name ++ '(' :: paramsCell m.params ++ (")</strong> : ".toList ++ "<em>".toList) := by
  rw [signaturePieces, assemble_cons, paramsCell]
  cases m.params with
  | nil =>
      rw [paramsPieces, assemble, List.flatMap_nil, List.append_nil, List.append_assoc]
      rfl
  | cons p ps =>
      calc
        m.name ++ "(</strong><em>".toList ++ assemble (paramsPieces (p :: ps)) =
            m.name ++ '(' :: "</strong>".toList ++ ("<em>".toList ++ assemble (paramsPieces (p :: ps))) := by simp
        _ = m.name ++ '(' :: ("</strong>".toList ++ Text.join ", " ((p :: ps).map paramCell)) ++
            (")</strong> : ".toList ++ "<em>".toList) := by
          rw [assemble_paramsPieces]
          simp

/-- What follows the signature is put behind the return type. -/
theorem assemble_notePieces (before more : Text) (m : MethodDoc) :
    described (before ++ m.returnType ++ "</em>".toList) m ++ more =
      (if m.deprecated then "<strike>".toList else []) ++ before ++ assemble (notePieces ("</em>".toList ++ more) m) := by
  unfold described notePieces
  split
  · simp [assemble, tag]
  · split <;> simp [assemble, tag]

theorem signature_eq (declareAbstract : Bool) (m : MethodDoc) :
    signature declareAbstract m =
      "<strong>".toList ++ (if declareAbstract && m.isAbstract then "abstract ".toList else []) ++
        assemble (signaturePieces m) ++ m.returnType ++ "</em>".toList := by
  unfold signature
  simp only [assemble_signaturePieces, tag_em, List.append_assoc]

theorem references_eq (h : m.see ≠ []) :
    references m = "<br /><em>&nbsp;&nbsp;&nbsp;&nbsp;See: ".toList ++ assemble (seePieces m.see) := by
  obtain ⟨s, ss, hsee⟩ := List.exists_cons_of_ne_nil h
  unfold references
  rw [hsee, assemble_seePieces, tag_em]
  simp only [List.append_assoc]
  rfl

/-- A cell is its opening and its pieces. -/
theorem cell_eq_tidy (declareAbstract includeSee : Bool) (m : MethodDoc) :
    cell declareAbstract includeSee m =
      tidy (opening m.deprecated (declareAbstract && m.isAbstract) ++ assemble (cellPieces includeSee m)) := by
  simp only [cell]
  congr 1
  rw [signature_eq, opening, cellPieces, assemble_append]
  by_cases hsee : (includeSee && !m.see.isEmpty) = true
  · have hne : m.see ≠ [] := by simp_all
    rw [if_pos hsee, if_pos hsee, references_eq hne, ← List.append_assoc, assemble_notePieces, assemble_append]
    simp only [List.append_assoc]
    rfl
  · rw [if_neg hsee, if_neg hsee, ← List.append_nil (described _ _), assemble_notePieces, List.append_nil]
    simp only [List.append_assoc]

/-! ### The fixed texts of a cell -/

theorem fixed_paramPieces {after : Text} (h : Fixed after) (p : ParamDoc) : ∀ q ∈ paramPieces after p, Fixed q.2 := by
  have htype : Fixed "</em> <strong>" := by decide +kernel
  have hname : Fixed "=" := by decide +kernel
  unfold paramPieces
  cases p.default with
  | none => exact List.forall_mem_cons.mpr ⟨htype, List.forall_mem_singleton.mpr h⟩
  | some value =>
      exact List.forall_mem_cons.mpr ⟨htype, List.forall_mem_cons.mpr ⟨hname, List.forall_mem_singleton.mpr h⟩⟩

theorem fixed_paramsPieces (ps : List ParamDoc) : ∀ q ∈ paramsPieces ps, Fixed q.2 := by
  have hlast : Fixed "</strong>)</strong> : <em>" := by decide +kernel
  have hnext : Fixed "</strong>, <em>" := by decide +kernel
  fun_induction paramsPieces ps with
  | case1 => exact List.forall_mem_nil _
  | case2 p => exact fixed_paramPieces hlast p
  | case3 p q ps ih => exact List.forall_mem_append.mpr ⟨fixed_paramPieces hnext p, ih⟩

theorem fixed_signaturePieces (m : MethodDoc) : ∀ q ∈ signaturePieces m, Fixed q.2 := by
  have hempty : Fixed "()</strong> : <em>" := by decide +kernel
  have hparams : Fixed "(</strong><em>" := by decide +kernel
  refine List.forall_mem_cons.mpr ⟨?_, fixed_paramsPieces m.params⟩
  dsimp only
  split
  · exact hempty
  · exact hparams

theorem fixed_notePieces {after : Text} (h : Fixed after) (m : MethodDoc) : ∀ q ∈ notePieces after m, Fixed q.2 := by
  have hdeprecated : Fixed "</em></strike><br /><em>DEPRECATED - " := by decide +kernel
  have hdescribed : Fixed "</em><br /><em>" := by decide +kernel
  unfold notePieces
  split
  · exact List.forall_mem_cons.mpr ⟨hdeprecated, List.forall_mem_singleton.mpr h⟩
  · split
    · exact List.forall_mem_singleton.mpr h
    · exact List.forall_mem_cons.mpr ⟨hdescribed, List.forall_mem_singleton.mpr h⟩

theorem fixed_seePieces (see : List Text) : ∀ q ∈ seePieces see, Fixed q.2 := by
  have hlast : Fixed "</em>" := by decide +kernel
  have hnext : Fixed ", " := by decide +kernel
  fun_induction seePieces see with
  | case1 => exact List.forall_mem_nil _
  | case2 => exact List.forall_mem_singleton.mpr hlast
  | case3 s t ss ih => exact List.forall_mem_cons.mpr ⟨hnext, ih⟩

theorem fixed_cellPieces (includeSee : Bool) (m : MethodDoc) : ∀ q ∈ cellPieces includeSee m, Fixed q.2 := by
  have hsee : Fixed "</em><br /><em>&nbsp;&nbsp;&nbsp;&nbsp;See: " := by decide +kernel
  have hlast : Fixed "</em>" := by decide +kernel
  refine List.forall_mem_append.mpr ⟨fixed_signaturePieces m, ?_⟩
  split
  · exact List.forall_mem_append.mpr ⟨fixed_notePieces hsee m, fixed_seePieces m.see⟩
  · exact fixed_notePieces hlast m

/-- No tag that is removed begins in an opening. -/
theorem joinTags_opening_append (isDeprecated isMarked : Bool) (s : Text) :
    joinTags (opening isDeprecated isMarked ++ s) = opening isDeprecated isMarked ++ joinTags s := by
  have hmarks : ∀ isDeprecated isMarked : Bool,
      ∀ mark ∈ ["</strong><strong>".toList, "</strong></strong> ".toList],
        ¬ mark <:+: opening isDeprecated isMarked ∧
          ∀ u ∈ (opening isDeprecated isMarked).tails, u ≠ [] → ¬ u <+: mark := by
    decide +kernel
  obtain ⟨hstrong, hdoubled⟩ := List.forall_mem_cons.mp (hmarks isDeprecated isMarked)
  have hdoubled := List.forall_mem_singleton.mp hdoubled
  rw [joinTags, Text.replaceAll_append_of_absent hstrong.1 hstrong.2,
    Text.replaceAll_append_of_absent hdoubled.1 hdoubled.2, ← joinTags]

theorem exists_last_seePieces (s : Text) (ss : List Text) :
    ∃ before t, seePieces (s :: ss) = before ++ [(t, "</em>".toList)] := by
  induction ss generalizing s with
  | nil => exact ⟨[], s, rfl⟩
  | cons t ss ih =>
      obtain ⟨before, last, h⟩ := ih t
      exact ⟨(s, ", ") :: before, last, by rw [seePieces, h, List.cons_append]⟩

theorem exists_last_cellPieces (includeSee : Bool) (m : MethodDoc) :
    ∃ before t, cellPieces includeSee m = before ++ [(t, "</em>".toList)] := by
  have hnote : ∃ before t, notePieces "</em>" m = before ++ [(t, "</em>".toList)] := by
    unfold notePieces
    split
    · exact ⟨[_], _, rfl⟩
    · split
      · exact ⟨[], _, rfl⟩
      · exact ⟨[_], _, rfl⟩
  unfold cellPieces
  split
  · rename_i hsee
    obtain ⟨s, ss, hcons⟩ := List.exists_cons_of_ne_nil (l := m.see) (by simp_all)
    obtain ⟨before, t, hlast⟩ := exists_last_seePieces s ss
    rw [hcons, hlast, ← List.append_assoc, ← List.append_assoc]
    exact ⟨_, t, rfl⟩
  · obtain ⟨before, t, hlast⟩ := hnote
    rw [hlast, ← List.append_assoc]
    exact ⟨_, t, rfl⟩

/-- A cell begins and ends with a tag, so there is nothing to trim. -/
theorem stripped_untidied (isDeprecated isMarked includeSee : Bool) (m : MethodDoc) :
    Text.Stripped Text.isBlank (opening isDeprecated isMarked ++ assemble (cellPieces includeSee m)) := by
  have hhead : ∀ isDeprecated isMarked : Bool, (opening isDeprecated isMarked).head? = some '<' := by decide
  obtain ⟨before, t, hlast⟩ := exists_last_cellPieces includeSee m
  constructor
  · intro c hc
    rw [Option.mem_def, List.head?_append, hhead] at hc
    cases hc
    decide
  · intro c hc
    rw [hlast, assemble_append, assemble_cons, assemble_nil, List.append_nil, ← List.append_assoc, ← List.append_assoc,
      Option.mem_def, List.getLast?_append] at hc
    cases hc
    decide

/-- Tidying changes the texts of a cell one by one. -/
theorem cell_eq (declareAbstract includeSee : Bool) (m : MethodDoc) :
    cell declareAbstract includeSee m =
      opening m.deprecated (declareAbstract && m.isAbstract) ++
        assemble ((cellPieces includeSee m).map fun p => (joinTags p.1, p.2)) := by
  rw [cell_eq_tidy, tidy_eq, Text.trim, (stripped_untidied _ _ includeSee m).strip_eq, joinTags_opening_append,
    joinTags_assemble (fixed_cellPieces includeSee m)]

/-! ### The texts of a row -/

/-- The deprecation or the description of a method, if it is shown. -/
def notes (m : MethodDoc) : List Text :=
  if m.deprecated then [m.deprecationMessage] else if m.description.isEmpty then [] else [m.description]

/-- The texts of a method that its row shows. -/
def texts (includeSee : Bool) (m : MethodDoc) : List Text :=
  m.name :: m.params.flatMap (fun p => p.type :: p.name :: p.default.toList) ++ m.returnType :: notes m ++
    if includeSee then m.see else []

theorem map_fst_paramsPieces (ps : List ParamDoc) :
    (paramsPieces ps).map Prod.fst = ps.flatMap fun p => p.type :: p.name :: p.default.toList := by
  have hparam : ∀ after p, (paramPieces after p).map Prod.fst = p.type :: p.name :: p.default.toList := by
    intro after p
    unfold paramPieces
    cases p.default <;> rfl
  fun_induction paramsPieces ps with
  | case1 => rfl
  | case2 p => rw [hparam, List.flatMap_singleton]
  | case3 p q ps ih =>
      rw [List.map_append, hparam, ih]
      rfl

theorem map_fst_notePieces (after : Text) (m : MethodDoc) :
    (notePieces after m).map Prod.fst = m.returnType :: notes m := by
  unfold notePieces notes
  split
  · rfl
  · split <;> rfl

theorem map_fst_seePieces (see : List Text) : (seePieces see).map Prod.fst = see := by
  fun_induction seePieces see with
  | case1 => rfl
  | case2 => rfl
  | case3 s t ss ih => rw [List.map_cons, ih]

theorem map_fst_cellPieces (includeSee : Bool) (m : MethodDoc) :
    (cellPieces includeSee m).map Prod.fst = texts includeSee m := by
  have hsignature : (signaturePieces m).map Prod.fst =
      m.name :: m.params.flatMap (fun p => p.type :: p.name :: p.default.toList) := by
    rw [signaturePieces, List.map_cons, map_fst_paramsPieces]
  rw [cellPieces, texts, List.map_append, hsignature]
  by_cases h : (includeSee && !m.see.isEmpty) = true
  · rw [if_pos h, if_pos (Bool.and_eq_true_iff.mp h).1, List.map_append, map_fst_notePieces, map_fst_seePieces,
      List.append_assoc]
  · have hsee : (if includeSee then m.see else []) = [] := by
      cases includeSee <;> simp_all
    rw [if_neg h, map_fst_notePieces, hsee, List.append_nil]

theorem bars_front (h : Inert s) (t : Text) :
    bars ("| ".toList ++ s ++ " | ".toList ++ t) = 2 + bars t := by
  have hbar : ∀ t, bars ('|' :: ' ' :: t) = 1 + bars t := by
    intro t
    rw [bars_cons (by decide), bars_cons_of_inert (by decide)]
    rfl
  have hsplit : "| ".toList ++ s ++ " | ".toList ++ t = '|' :: ' ' :: (s ++ ' ' :: '|' :: ' ' :: t) := by simp
  rw [hsplit, hbar, bars_inert_append h, bars_cons_of_inert (by decide), hbar, ← Nat.add_assoc]

/-- The bars of a row are three and those of its texts. -/
theorem bars_row (declareAbstract includeSee : Bool) (m : MethodDoc) :
    bars (row declareAbstract includeSee m) =
      3 + ((texts includeSee m).map fun t => bars (joinTags t)).sum := by
  have hopening : ∀ isDeprecated isMarked : Bool, Inert (opening isDeprecated isMarked) := by decide
  have haccess : ∀ (a : Access) (isStatic : Bool), Inert (a.text ++ if isStatic then " static".toList else []) := by
    intro a isStatic
    cases a <;> cases isStatic <;> decide
  have hfixed : ∀ p ∈ (cellPieces includeSee m).map fun p => (joinTags p.1, p.2), Fixed p.2 :=
    List.forall_mem_map.mpr (fixed_cellPieces includeSee m)
  have hcell : bars (cell declareAbstract includeSee m) =
      ((texts includeSee m).map fun t => bars (joinTags t)).sum := by
    rw [cell_eq, bars_inert_append (hopening _ _), bars_assemble hfixed, List.map_map, ← map_fst_cellPieces,
      List.map_map]
    rfl
  have hback : bars (cell declareAbstract includeSee m ++ " |".toList) = bars (cell declareAbstract includeSee m) + 1 :=
    bars_append_cons (by decide) _ _
  unfold row
  rw [List.append_assoc, bars_front (haccess _ _), hback, hcell]
  omega

theorem oneLine_row_iff (declareAbstract includeSee : Bool) (m : MethodDoc) :
    Text.OneLine (row declareAbstract includeSee m) ↔ ∀ t ∈ texts includeSee m, Text.OneLine t := by
  have hopening : ∀ isDeprecated isMarked : Bool, Text.OneLine (opening isDeprecated isMarked) := by decide
  have hfixed : ∀ p ∈ (cellPieces includeSee m).map fun p => (joinTags p.1, p.2), Fixed p.2 :=
    List.forall_mem_map.mpr (fixed_cellPieces includeSee m)
  have hcell : Text.OneLine (cell declareAbstract includeSee m) ↔ ∀ t ∈ texts includeSee m, Text.OneLine t := by
    rw [cell_eq, Text.oneLine_append_iff, and_iff_right (hopening _ _), oneLine_assemble_iff hfixed,
      List.forall_mem_map, ← map_fst_cellPieces, List.forall_mem_map]
    simp only [oneLine_joinTags_iff]
  have hfront : ∀ (a : Access) (isStatic : Bool),
      Text.OneLine ("| ".toList ++ (a.text ++ if isStatic then " static".toList else []) ++ " | ".toList) := by
    intro a isStatic
    cases a <;> cases isStatic <;> decide
  have hback : Text.OneLine " |".toList := by decide
  unfold row
  rw [Text.oneLine_append_iff, and_iff_left hback, Text.oneLine_append_iff, and_iff_right (hfront _ _), hcell]

/-- The row of a method is one line with three bars exactly if each text that it shows is one line without bars. -/
theorem isRow_row_iff (declareAbstract includeSee : Bool) (m : MethodDoc) :
    IsRow (row declareAbstract includeSee m) ↔
      ∀ t ∈ texts includeSee m, Text.OneLine t ∧ bars (joinTags t) = 0 := by
  have hbars := bars_row declareAbstract includeSee m
  have hline := oneLine_row_iff declareAbstract includeSee m
  have hsum : ((texts includeSee m).map fun t => bars (joinTags t)).sum = 0 ↔
      ∀ t ∈ texts includeSee m, bars (joinTags t) = 0 := by
    rw [List.sum_eq_zero_iff_forall_eq_nat, List.forall_mem_map]
  constructor
  · intro h t ht
    have hthree := h.bars_eq
    exact ⟨hline.mp h.oneLine t ht, hsum.mp (by omega) t ht⟩
  · intro h
    have hzero := hsum.mpr fun t ht => (h t ht).2
    exact ⟨hline.mpr fun t ht => (h t ht).1, by omega⟩

/-! ### Names and free texts -/

/-- The names and types in a row. -/
def names (m : MethodDoc) : List Text :=
  m.name :: m.returnType :: m.params.flatMap fun p => [p.type, p.name]

/-- The texts in a row that are neither names nor types. -/
def freeTexts (includeSee : Bool) (m : MethodDoc) : List Text :=
  m.params.flatMap (fun p => p.default.toList) ++ notes m ++ if includeSee then m.see else []

theorem texts_perm (includeSee : Bool) (m : MethodDoc) :
    (texts includeSee m).Perm (names m ++ freeTexts includeSee m) := by
  have hparams := List.flatMap_append_perm m.params (fun p => [p.type, p.name]) fun p => p.default.toList
  rw [List.perm_iff_count] at hparams ⊢
  intro t
  have hcount := hparams t
  simp only [texts, names, freeTexts, List.count_append, List.count_cons, List.cons_append, List.nil_append] at hcount ⊢
  omega

section Names

variable (h : ∀ t ∈ names m, t = m.returnType ∨ Fits t) (hreturn : '|' ∉ m.returnType) (declareAbstract includeSee : Bool)

include h hreturn

theorem bars_row_of_names :
    bars (row declareAbstract includeSee m) =
      3 + ((freeTexts includeSee m).map fun t => bars (joinTags t)).sum := by
  have hbar : ∀ t ∈ names m, '|' ∉ t := fun t ht => (h t ht).elim (fun heq => heq ▸ hreturn) Fits.noBar
  have hnames : ((names m).map fun t => bars (joinTags t)).sum = 0 :=
    List.sum_eq_zero_iff_forall_eq_nat.mpr (List.forall_mem_map.mpr fun t ht => bars_joinTags_eq_zero (hbar t ht))
  rw [bars_row, ((texts_perm includeSee m).map _).sum_nat, List.map_append, List.sum_append_nat, hnames, Nat.zero_add]

/-- If no bar or line break is in a name or a type, the return type apart, the row depends on the other texts. -/
theorem isRow_row_iff_of_names :
    IsRow (row declareAbstract includeSee m) ↔
      Text.OneLine m.returnType ∧ ∀ t ∈ freeTexts includeSee m, Text.OneLine t ∧ bars (joinTags t) = 0 := by
  have hmem : ∀ t, t ∈ texts includeSee m ↔ t ∈ names m ++ freeTexts includeSee m := fun t =>
    (texts_perm includeSee m).mem_iff
  simp only [isRow_row_iff, hmem, List.forall_mem_append]
  refine and_congr_left fun _ => ⟨fun hall => (hall m.returnType (by simp [names])).1, fun hone t ht => ?_⟩
  rcases h t ht with rfl | hfits
  · exact ⟨hone, bars_joinTags_eq_zero hreturn⟩
  · exact ⟨hfits.oneLine, bars_joinTags_eq_zero hfits.noBar⟩

end Names

end Table

end ApiPages
