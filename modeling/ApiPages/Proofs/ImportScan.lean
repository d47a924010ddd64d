import ApiPages.Import
import ApiPages.Proofs.Lines

/-! # The scan for imports

The scan looks at one character before a keyword and at one after it, and a statement ends with its semicolon.  So a
semicolon parts a source into two that are read on their own: no keyword reaches over it (`keywordAt_append_semicolon`),
and the statement that is open before it takes nothing from behind it (`cutAtUse_append_semicolon`).

A keyword is a whole run of identifier characters, so nothing is cut in a text that has no run `use` (`cutAtUse_of_noUse`).
-/

namespace ApiPages

namespace Import

variable {prev other : Option Char} {c next : Char} {s t rest : Text}

/-! ### Statements -/

/-- The text of a chunk up to its semicolon. -/
def upToSemicolon (chunk : Text) : Text :=
  chunk.takeWhile (· != ';')

/-- The statements of a source, without their keywords and semicolons. -/
def statements (source : Text) : List Text :=
  (useChunks source).map fun chunk => Text.trim (upToSemicolon chunk)

theorem ofSource_eq_flatMap (source : Text) : ofSource source = (statements source).flatMap ofStatement := by
  rw [statements, List.flatMap_map]
  rfl

theorem upToSemicolon_append (h : ';' ∉ s) (t : Text) : upToSemicolon (s ++ ';' :: t) = s := by
  unfold upToSemicolon
  rw [List.takeWhile_append_of_pos, List.takeWhile_cons_of_neg (by decide), List.append_nil]
  intro c hc
  rw [bne_iff_ne]
  rintro rfl
  exact h hc

/-! ### One keyword -/

theorem keywordAt_iff : keywordAt prev s = true ↔
    prev.any isIdentifierChar = false ∧
      ∃ next rest, s = 'u' :: 's' :: 'e' :: next :: rest ∧ Text.isAsciiBlank next = true := by
  unfold keywordAt
  rw [Bool.and_eq_true, Bool.not_eq_true']
  refine and_congr_right fun _ => ?_
  split
  · rename_i next rest
    constructor
    · intro h
      exact ⟨next, rest, rfl, h⟩
    · rintro ⟨_, _, heq, h⟩
      cases heq
      exact h
  · rename_i hother
    refine iff_of_false Bool.false_ne_true ?_
    rintro ⟨next, rest, rfl, _⟩
    exact hother next rest rfl

/-- Only whether an identifier ends before a text matters for its keywords. -/
theorem cutAtUse_congr (h : prev.any isIdentifierChar = other.any isIdentifierChar) (s : Text) :
    cutAtUse prev s = cutAtUse other s := by
  cases s with
  | nil => rfl
  | cons c s =>
      have hkeyword : keywordAt prev (c :: s) = keywordAt other (c :: s) := by
        unfold keywordAt
        rw [h]
      rw [cutAtUse, cutAtUse, hkeyword]

theorem cutAtUse_of_not_keyword (h : keywordAt prev (c :: s) = false) :
    cutAtUse prev (c :: s) = (c :: (cutAtUse (some c) s).1, (cutAtUse (some c) s).2) := by
  rw [cutAtUse, h]
  rfl

theorem keywordAt_of_ne (h : c ≠ 'u') (s : Text) : keywordAt prev (c :: s) = false := by
  rw [Bool.eq_false_iff, ne_eq, keywordAt_iff]
  rintro ⟨_, next, rest, heq, _⟩
  exact h (List.cons.inj heq).1

/-- The text is cut at a keyword, and what follows it is cut on its own. -/
theorem cutAtUse_keyword (hprev : prev.any isIdentifierChar = false) (hnext : Text.isAsciiBlank next = true)
    (rest : Text) :
    cutAtUse prev ('u' :: 's' :: 'e' :: next :: rest) =
      ([], (cutAtUse (some 'e') (next :: rest)).1 :: (cutAtUse (some 'e') (next :: rest)).2) := by
  have hkeyword : keywordAt prev ('u' :: 's' :: 'e' :: next :: rest) = true :=
    keywordAt_iff.mpr ⟨hprev, next, rest, rfl, hnext⟩
  rw [cutAtUse, hkeyword, cutAtUse_of_not_keyword (keywordAt_of_ne (by decide) _),
    cutAtUse_of_not_keyword (keywordAt_of_ne (by decide) _)]
  rfl

/-- What is not part of an identifier may stand before a source. -/
theorem useChunks_cons (h : isIdentifierChar c = false) (s : Text) : useChunks (c :: s) = useChunks s := by
  have hne : c ≠ 'u' := by
    rintro rfl
    cases h
  have hprev : (some c).any isIdentifierChar = none.any isIdentifierChar := h
  rw [useChunks, cutAtUse_of_not_keyword (keywordAt_of_ne hne s), cutAtUse_congr hprev, ← useChunks]

/-! ### At a semicolon -/

/-- A semicolon is neither part of a keyword nor the white space after one. -/
theorem keywordAt_append_semicolon (prev : Option Char) (s t : Text) :
    keywordAt prev (s ++ ';' :: t) = keywordAt prev (s ++ [';']) := by
  have hblank : Text.isAsciiBlank ';' = false := by decide
  rw [Bool.eq_iff_iff, keywordAt_iff, keywordAt_iff]
  refine and_congr_right fun _ => ?_
  rcases s with _ | ⟨c₁, _ | ⟨c₂, _ | ⟨c₃, _ | ⟨c₄, s⟩⟩⟩⟩ <;> simp [hblank]

/-- A source is cut before a semicolon as if it ended there, and behind it as if it began there. -/
theorem cutAtUse_append_semicolon (prev : Option Char) (s t : Text) :
    upToSemicolon (cutAtUse prev (s ++ ';' :: t)).1 = upToSemicolon (cutAtUse prev (s ++ [';'])).1 ∧
      (cutAtUse prev (s ++ ';' :: t)).2.map upToSemicolon =
        (cutAtUse prev (s ++ [';'])).2.map upToSemicolon ++ (useChunks t).map upToSemicolon := by
  induction s generalizing prev with
  | nil =>
      have hprev : (some ';').any isIdentifierChar = none.any isIdentifierChar := by decide
      rw [List.nil_append, List.nil_append, cutAtUse_of_not_keyword (keywordAt_of_ne (by decide) t),
        cutAtUse_of_not_keyword (keywordAt_of_ne (by decide) []), cutAtUse_congr hprev t]
      exact ⟨rfl, rfl⟩
  | cons c s ih =>
      obtain ⟨hhead, hchunks⟩ := ih (some c)
      have hsame := keywordAt_append_semicolon prev (c :: s) t
      rw [List.cons_append, List.cons_append] at hsame
      rw [List.cons_append, List.cons_append]
      cases hkeyword : keywordAt prev (c :: (s ++ [';'])) with
      | false =>
          rw [cutAtUse_of_not_keyword (hsame.trans hkeyword), cutAtUse_of_not_keyword hkeyword]
          refine ⟨?_, hchunks⟩
          by_cases hc : c = ';'
          · simp [upToSemicolon, hc]
          · unfold upToSemicolon at hhead ⊢
            rw [List.takeWhile_cons_of_pos (by simpa using hc), List.takeWhile_cons_of_pos (by simpa using hc), hhead]
      | true =>
          -- the rest of the keyword stays at the head of what follows, and neither letter is a semicolon
          obtain ⟨hprev, next, rest, heq, hnext⟩ := keywordAt_iff.mp (hsame.trans hkeyword)
          obtain ⟨_, next', rest', heq', hnext'⟩ := keywordAt_iff.mp hkeyword
          obtain ⟨rfl, hs⟩ := List.cons.inj heq
          obtain ⟨_, hs'⟩ := List.cons.inj heq'
          have hletters (t : Text) : cutAtUse (some 'u') ('s' :: 'e' :: t) =
              ('s' :: 'e' :: (cutAtUse (some 'e') t).1, (cutAtUse (some 'e') t).2) := by
            rw [cutAtUse_of_not_keyword (keywordAt_of_ne (by decide) _),
              cutAtUse_of_not_keyword (keywordAt_of_ne (by decide) _)]
          rw [hs, hs', hletters, hletters] at hhead hchunks
          rw [hs, hs', cutAtUse_keyword hprev hnext, cutAtUse_keyword hprev hnext']
          have hopen : upToSemicolon (cutAtUse (some 'e') (next :: rest)).1 =
              upToSemicolon (cutAtUse (some 'e') (next' :: rest')).1 :=
            (List.cons.inj (List.cons.inj hhead).2).2
          refine ⟨rfl, ?_⟩
          rw [List.map_cons, List.map_cons, hopen, hchunks, List.cons_append]

theorem statements_append_semicolon (s t : Text) :
    statements (s ++ ';' :: t) = statements (s ++ [';']) ++ statements t := by
  have hmap (chunks : List Text) : (chunks.map fun chunk => Text.trim (upToSemicolon chunk)) =
      (chunks.map upToSemicolon).map Text.trim := by
    rw [List.map_map]
    rfl
  unfold statements
  rw [hmap, hmap, hmap, ← List.map_append]
  exact congrArg (List.map Text.trim) (cutAtUse_append_semicolon none s t).2

theorem ofSource_append_semicolon (s t : Text) : ofSource (s ++ ';' :: t) = ofSource (s ++ [';']) ++ ofSource t := by
  rw [ofSource_eq_flatMap, statements_append_semicolon, List.flatMap_append, ← ofSource_eq_flatMap,
    ← ofSource_eq_flatMap]

/-- **A source is read piece by piece.**  What follows a semicolon does not change what is imported before it, and the
other way round. -/
theorem ofSource_append (before after : Text) (h : before.getLast? = some ';') :
    ofSource (before ++ after) = ofSource before ++ ofSource after := by
  obtain ⟨s, rfl⟩ := List.getLast?_eq_some_iff.mp h
  rw [List.append_assoc, List.singleton_append, ofSource_append_semicolon]

/-- The last word before the semicolon is an alias and no keyword; the first one behind it is a keyword. -/
theorem seam_ofSource_append :
    let before : Text := "use Größe\\A, B;reuse C;use D as use;"
    let after : Text := "use\tE;use F"
    before.getLast? = some ';' ∧
      ofSource (before ++ after) = ofSource before ++ ofSource after ∧
      (ofSource before).map path = ["\\B", "\\D"].map String.toList ∧
      (ofSource after).map path = ["\\E", "\\F"].map String.toList := by
  refine ⟨by decide, ofSource_append _ _ (by decide), by decide +kernel, by decide +kernel⟩

/-! ### Sources without a keyword -/

/-- No run of identifier characters is the word `use`. -/
def NoUse (s : Text) : Prop :=
  ∀ run ∈ s.splitOnP (fun c => !isIdentifierChar c), run ≠ "use".toList

theorem isIdentifierChar_of_isAsciiBlank (h : Text.isAsciiBlank c = true) : isIdentifierChar c = false := by
  simp only [Text.isAsciiBlank, Bool.or_eq_true, beq_iff_eq] at h
  rcases h with (((rfl | rfl) | rfl) | rfl) | rfl <;> decide

theorem noUse_of_identifier (h : ∀ c ∈ s, isIdentifierChar c = true) (hne : s ≠ "use".toList) : NoUse s := by
  intro run hrun
  rw [List.splitOnP_eq_singleton (by simpa using h), List.mem_singleton] at hrun
  rwa [hrun]

theorem noUse_append_cons (hc : isIdentifierChar c = false) : NoUse (s ++ c :: t) ↔ NoUse s ∧ NoUse t := by
  unfold NoUse
  rw [List.splitOnP_append_cons s t (by simpa using hc), List.forall_mem_append]

theorem noUse_nil : NoUse [] :=
  noUse_of_identifier (List.forall_mem_nil _) (by decide)

theorem noUse_cons (hc : isIdentifierChar c = false) : NoUse (c :: s) ↔ NoUse s := by
  have h := noUse_append_cons (s := []) (t := s) hc
  rwa [List.nil_append, and_iff_right noUse_nil] at h

/-- A run that goes on from the character before is no keyword, whatever it is. -/
theorem cutAtUse_of_runs {first : Text} {runs : List Text}
    (hs : s.splitOnP (fun c => !isIdentifierChar c) = first :: runs)
    (hfirst : prev.any isIdentifierChar = false → first ≠ "use".toList) (hruns : ∀ run ∈ runs, run ≠ "use".toList) :
    cutAtUse prev s = (s, []) := by
  induction s generalizing prev first runs with
  | nil => rfl
  | cons c s ih =>
      have hkeyword : keywordAt prev (c :: s) = false := by
        rw [Bool.eq_false_iff, ne_eq, keywordAt_iff]
        rintro ⟨hprev, next, rest, heq, hnext⟩
        have hstop : (!isIdentifierChar next) = true := by rw [isIdentifierChar_of_isAsciiBlank hnext]; rfl
        have hword : ∀ c ∈ ['u', 's', 'e'], (!isIdentifierChar c) = false := by simp [isIdentifierChar]
        have hcut := List.splitOnP_append_cons_of_forall_mem hword next hstop rest
        rw [heq] at hs
        exact hfirst hprev (List.cons.inj (hs.symm.trans hcut)).1
      obtain ⟨first', runs', hs'⟩ := List.exists_cons_of_ne_nil
        (List.splitOnP_ne_nil (fun c => !isIdentifierChar c) s)
      have hrest : cutAtUse (some c) s = (s, []) := by
        rw [List.splitOnP_cons_eq_if_modifyHead, hs'] at hs
        cases hc : isIdentifierChar c with
        | false =>
            obtain ⟨_, rfl⟩ : [] = first ∧ first' :: runs' = runs := by simpa [hc] using hs
            exact ih hs' (fun _ => hruns first' List.mem_cons_self) fun run hrun =>
              hruns run (List.mem_cons_of_mem _ hrun)
        | true =>
            obtain ⟨_, rfl⟩ : c :: first' = first ∧ runs' = runs := by simpa [hc] using hs
            refine ih hs' (fun hprev => ?_) hruns
            rw [Option.any_some, hc] at hprev
            cases hprev
      rw [cutAtUse_of_not_keyword hkeyword, hrest]

theorem cutAtUse_of_noUse (h : NoUse s) : cutAtUse prev s = (s, []) := by
  obtain ⟨first, runs, hs⟩ := List.exists_cons_of_ne_nil (List.splitOnP_ne_nil (fun c => !isIdentifierChar c) s)
  unfold NoUse at h
  rw [hs] at h
  obtain ⟨hfirst, hruns⟩ := List.forall_mem_cons.mp h
  exact cutAtUse_of_runs hs (fun _ => hfirst) hruns

/-- A source with one statement that no other keyword cuts short. -/
theorem statements_use (hnext : Text.isAsciiBlank next = true) (h : NoUse rest) :
    statements ("use".toList ++ next :: rest) = [Text.trim (upToSemicolon (next :: rest))] := by
  have hcut : cutAtUse none ('u' :: 's' :: 'e' :: next :: rest) = ([], [next :: rest]) := by
    rw [cutAtUse_keyword rfl hnext, cutAtUse_of_noUse ((noUse_cons (isIdentifierChar_of_isAsciiBlank hnext)).mpr h)]
  have hchunks : useChunks ("use".toList ++ next :: rest) = [next :: rest] := congrArg Prod.snd hcut
  rw [statements, hchunks, List.map_singleton]

end Import

end ApiPages
