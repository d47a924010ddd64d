import ApiPages.ClassIndex.Hierarchy
import ApiPages.ClassName.Queue
import ApiPages.Proofs.Distinct

/-! # Ancestors and interfaces: what the orders contain

The two orders in which other classes are asked hold known names with distinct keys, none of which was met
before (`nodup_trail_ancestryFrom`, `nodup_taken_interfacesFrom`).  `interfaceOrder` is computed with a queue;
`interfaceOrder_eq_levelOrder` shows that it is the order by levels: the interfaces of a class and of its
ancestors first, then the interfaces that these extend, and so on, each key once. -/

namespace ApiPages

namespace ClassName

/-! ### Fresh names -/

theorem fresh_congr {seen seen' : List Text} (h : ∀ k, k ∈ seen ↔ k ∈ seen') (names : List Text) :
    fresh seen names = fresh seen' names := by
  induction names generalizing seen seen' with
  | nil => rfl
  | cons name names ih =>
      unfold fresh
      by_cases hn : key name ∈ seen
      · rw [if_pos hn, if_pos ((h _).mp hn), ih h]
      · have hc : ∀ k, k ∈ key name :: seen ↔ k ∈ key name :: seen' := by
          intro k
          simp only [List.mem_cons, h k]
        rw [if_neg hn, if_neg (fun h' => hn ((h _).mpr h')), ih hc]

theorem fresh_append (seen names names' : List Text) :
    fresh seen (names ++ names') =
      fresh seen names ++ fresh ((fresh seen names).map key ++ seen) names' := by
  induction names generalizing seen with
  | nil => rfl
  | cons name names ih =>
      simp only [List.cons_append, fresh]
      by_cases hn : key name ∈ seen
      · rw [if_pos hn, if_pos hn, ih]
      · rw [if_neg hn, if_neg hn, ih, List.cons_append]
        congr 2
        apply fresh_congr
        intro k
        simp only [List.mem_append, List.map_cons, List.mem_cons]
        tauto

end ClassName

/-! ### Queues -/

namespace Queue

theorem ext_lists {q q' : Queue} (ht : q.taken = q'.taken) (hw : q.waiting = q'.waiting) : q = q' := by
  obtain ⟨taken, waiting, _⟩ := q
  obtain ⟨taken', waiting', _⟩ := q'
  cases ht
  cases hw
  rfl

theorem add_nil (q : Queue) : q.add [] = q :=
  ext_lists rfl (List.append_nil _)

theorem add_append (q : Queue) (names names' : List Text) :
    q.add (names ++ names') = (q.add names).add names' := by
  refine ext_lists rfl ?_
  have hseen : ∀ k, k ∈ (ClassName.fresh q.seen names).map ClassName.key ++ q.seen ↔
      k ∈ (q.add names).seen := by
    intro k
    simp only [seen, add, List.map_append, List.mem_append]
    tauto
  change q.waiting ++ ClassName.fresh q.seen (names ++ names') =
    q.waiting ++ ClassName.fresh q.seen names ++ ClassName.fresh (q.add names).seen names'
  rw [ClassName.fresh_append, ClassName.fresh_congr hseen, List.append_assoc]

end Queue

namespace ClassIndex

variable {ix : ClassIndex}

/-! ### Looking up -/

theorem find?_congr {name name' : Text} (h : ClassName.key name = ClassName.key name') :
    ix.find? name = ix.find? name' := by
  unfold find?
  rw [h]

theorem key_eq_of_find? {name : Text} {c : ClassDecl} (h : ix.find? name = some c) :
    c.key = ClassName.key name := by
  have hc := List.find?_some h
  simpa using hc

theorem mem_of_find? {name : Text} {c : ClassDecl} (h : ix.find? name = some c) :
    c ∈ ix.classes :=
  List.mem_of_find?_eq_some h

/-- A class is the one found under its name, since keys are distinct. -/
theorem find?_name_of_mem {c : ClassDecl} (h : c ∈ ix.classes) : ix.find? c.name = some c :=
  find?_of_nodup_map ix.distinct h

theorem find?_eq_none_iff {name : Text} : ix.find? name = none ↔ ClassName.key name ∉ ix.keys := by
  constructor
  · intro h hk
    obtain ⟨c, hc, hkc⟩ := List.mem_map.mp hk
    have hne := List.find?_eq_none.mp h c hc
    exact hne (by simpa using hkc)
  · intro h
    cases hf : ix.find? name with
    | none => rfl
    | some c => exact absurd (key_mem_keys_of_find? hf) h

theorem find?_without_of_ne (classes : List ClassDecl) {k name : Text} (h : ClassName.key name ≠ k) :
    (without classes k).find? (·.key == ClassName.key name) = classes.find? (·.key == ClassName.key name) := by
  rw [without, List.find?_filter]
  congr 1
  funext d
  by_cases hd : d.key = ClassName.key name
  · simp [hd, h]
  · simp [hd]

theorem find?_insert_of_ne {c : ClassDecl} {name : Text} (h : ClassName.key name ≠ c.key) :
    (ix.insert c).find? name = ix.find? name := by
  have hlast : [c].find? (·.key == ClassName.key name) = none := by
    simp [Ne.symm h]
  change (without ix.classes c.key ++ [c]).find? _ = _
  rw [List.find?_append, hlast, Option.or_none, find?_without_of_ne _ h]
  rfl

theorem find?_insert_of_key {c : ClassDecl} {name : Text} (h : ClassName.key name = c.key) :
    (ix.insert c).find? name = some c := by
  have hothers : (without ix.classes c.key).find? (·.key == ClassName.key name) = none := by
    rw [h, List.find?_eq_none]
    intro d hd
    simpa [without] using (List.mem_filter.mp hd).2
  change (without ix.classes c.key ++ [c]).find? _ = _
  rw [List.find?_append, hothers, Option.none_or, List.find?_cons_of_pos]
  simp [h]

/-! ### Ancestors -/

theorem find?_of_mem_ancestors {visited : List Text} {c p : ClassDecl} {name : Text}
    (h : (name, p) ∈ (ix.ancestryFrom visited c).ancestors) : ix.find? name = some p := by
  induction visited, c using ancestryFrom.induct ix with
  | case1 visited c hp => rw [ancestryFrom_root hp] at h; cases h
  | case2 visited c n hp hv => rw [ancestryFrom_loop hp hv] at h; cases h
  | case3 visited c n hp hv hf => rw [ancestryFrom_unknown hp hv hf] at h; cases h
  | case4 visited c n hp hv q hf ih =>
      rw [ancestryFrom_known hp hv hf] at h
      rcases List.mem_cons.mp h with h | h
      · obtain ⟨rfl, rfl⟩ := Prod.mk.inj h
        exact hf
      · exact ih h

theorem key_notMem_of_mem_names {visited : List Text} {c : ClassDecl} {name : Text}
    (h : name ∈ (ix.ancestryFrom visited c).names) : ClassName.key name ∉ visited := by
  induction visited, c using ancestryFrom.induct ix with
  | case1 visited c hp => rw [ancestryFrom_root hp] at h; cases h
  | case2 visited c n hp hv => rw [ancestryFrom_loop hp hv] at h; cases h
  | case3 visited c n hp hv hf => rw [ancestryFrom_unknown hp hv hf] at h; cases h
  | case4 visited c n hp hv q hf ih =>
      rw [ancestryFrom_known hp hv hf] at h
      rcases List.mem_cons.mp h with rfl | h
      · exact hv
      · exact fun hk => ih h (List.mem_cons_of_mem _ hk)

theorem nodup_ancestryFrom (visited : List Text) (c : ClassDecl) :
    ((ix.ancestryFrom visited c).names.map ClassName.key).Nodup := by
  induction visited, c using ancestryFrom.induct ix with
  | case1 visited c hp => rw [ancestryFrom_root hp]; exact List.nodup_nil
  | case2 visited c n hp hv => rw [ancestryFrom_loop hp hv]; exact List.nodup_nil
  | case3 visited c n hp hv hf => rw [ancestryFrom_unknown hp hv hf]; exact List.nodup_nil
  | case4 visited c n hp hv q hf ih =>
      rw [ancestryFrom_known hp hv hf]
      refine List.nodup_cons.mpr ⟨?_, ih⟩
      intro hk
      obtain ⟨m, hm, hkm⟩ := List.mem_map.mp hk
      exact key_notMem_of_mem_names hm (hkm ▸ List.mem_cons_self)

/-- A walk to the ancestors meets new keys only, each at most once. -/
theorem nodup_trail_ancestryFrom (trail : Trail) (c : ClassDecl) :
    (trail.keys ++ (ix.ancestryFrom trail.keys c).names.map ClassName.key).Nodup := by
  refine List.nodup_append.mpr ⟨trail.distinct, nodup_ancestryFrom trail.keys c, ?_⟩
  rintro k hk k' hk' rfl
  obtain ⟨n, hn, rfl⟩ := List.mem_map.mp hk'
  exact key_notMem_of_mem_names hn hk

/-! ### The queue of interfaces -/

/-- Only known keys matter among those visited. -/
theorem interfacesFrom_congr {visited visited' : List Text}
    (h : ∀ k ∈ ix.keys, k ∈ visited ↔ k ∈ visited') (queue : List Text) :
    ix.interfacesFrom visited queue = ix.interfacesFrom visited' queue := by
  induction visited, queue using interfacesFrom.induct ix generalizing visited' with
  | case1 visited => rw [interfacesFrom_nil, interfacesFrom_nil]
  | case2 visited name queue hv ih =>
      rw [interfacesFrom_visited hv, ih h]
      by_cases hi : ClassName.key name ∈ ix.keys
      · rw [interfacesFrom_visited ((h _ hi).mp hv)]
      · rw [interfacesFrom_unknown (find?_eq_none_iff.mpr hi)]
  | case3 visited name queue hv hc ih =>
      rw [interfacesFrom_unknown hc, interfacesFrom_unknown hc, ih h]
  | case4 visited name queue hv c hc ih =>
      have hk : ∀ k ∈ ix.keys, k ∈ ClassName.key name :: visited ↔
          k ∈ ClassName.key name :: visited' := by
        intro k hi
        simp only [List.mem_cons, h k hi]
      have hv' : ClassName.key name ∉ visited' :=
        fun h' => hv ((h _ (key_mem_keys_of_find? hc)).mpr h')
      rw [interfacesFrom_known hv hc, interfacesFrom_known hv' hc, ih hk]

/-- A name of the queue has no effect if its key was visited or stands further ahead, or if it is
unknown. -/
theorem interfacesFrom_drop {visited : List Text} {before after : List Text} {name : Text}
    (h : ClassName.key name ∈ visited ∨ ClassName.key name ∈ before.map ClassName.key ∨
      ix.find? name = none) :
    ix.interfacesFrom visited (before ++ name :: after) =
      ix.interfacesFrom visited (before ++ after) := by
  induction before generalizing visited after with
  | nil =>
      rcases h with h | h | h
      · exact interfacesFrom_visited h
      · cases h
      · exact interfacesFrom_unknown h
  | cons b before ih =>
      simp only [List.cons_append]
      by_cases hv : ClassName.key b ∈ visited
      · rw [interfacesFrom_visited hv, interfacesFrom_visited hv, ih]
        rcases h with h | h | h
        · exact .inl h
        · rcases List.mem_cons.mp h with h | h
          · exact .inl (h ▸ hv)
          · exact .inr (.inl h)
        · exact .inr (.inr h)
      · cases hb : ix.find? b with
        | none =>
            rw [interfacesFrom_unknown hb, interfacesFrom_unknown hb, ih]
            rcases h with h | h | h
            · exact .inl h
            · rcases List.mem_cons.mp h with h | h
              · exact .inr (.inr ((find?_congr h).trans hb))
              · exact .inr (.inl h)
            · exact .inr (.inr h)
        | some c =>
            rw [interfacesFrom_known hv hb, interfacesFrom_known hv hb]
            rw [List.append_assoc, List.cons_append, List.append_assoc, ih]
            rcases h with h | h | h
            · exact .inl (List.mem_cons_of_mem _ h)
            · rcases List.mem_cons.mp h with h | h
              · exact .inl (h ▸ List.mem_cons_self)
              · exact .inr (.inl h)
            · exact .inr (.inr h)

/-- Only fresh names need to be queued, if every key that was seen was visited or is waiting. -/
theorem interfacesFrom_fresh {visited seen : List Text} (queue names : List Text)
    (h : ∀ k ∈ seen, k ∈ visited ∨ k ∈ queue.map ClassName.key) :
    ix.interfacesFrom visited (queue ++ ClassName.fresh seen names) =
      ix.interfacesFrom visited (queue ++ names) := by
  induction names generalizing queue seen with
  | nil => rfl
  | cons name names ih =>
      unfold ClassName.fresh
      split_ifs with hs
      · rw [ih queue h, interfacesFrom_drop]
        rcases h _ hs with h | h
        · exact .inl h
        · exact .inr (.inl h)
      · have hq : ∀ k ∈ ClassName.key name :: seen, k ∈ visited ∨
            k ∈ (queue ++ [name]).map ClassName.key := by
          intro k hk
          rw [List.map_append, List.mem_append]
          rcases List.mem_cons.mp hk with rfl | hk
          · exact .inr (.inr (List.mem_singleton_self _))
          · exact (h k hk).imp_right .inl
        have := ih (queue ++ [name]) hq
        simpa using this

/-- Names that are put into a queue are searched behind those that are waiting. -/
theorem interfacesFrom_add (q : Queue) (names : List Text) :
    ix.interfacesFrom (q.add names).taken (q.add names).waiting =
      ix.interfacesFrom q.taken (q.waiting ++ names) :=
  interfacesFrom_fresh q.waiting names fun _ hk => List.mem_append.mp hk

theorem key_notMem_of_mem_interfacesFrom {visited queue : List Text} {name : Text}
    (h : name ∈ ix.interfacesFrom visited queue) :
    ClassName.key name ∉ visited ∧ ClassName.key name ∈ ix.keys := by
  induction visited, queue using interfacesFrom.induct ix with
  | case1 visited => rw [interfacesFrom_nil] at h; cases h
  | case2 visited n queue hv ih => rw [interfacesFrom_visited hv] at h; exact ih h
  | case3 visited n queue hv hc ih => rw [interfacesFrom_unknown hc] at h; exact ih h
  | case4 visited n queue hv c hc ih =>
      rw [interfacesFrom_known hv hc] at h
      rcases List.mem_cons.mp h with rfl | h
      · exact ⟨hv, key_mem_keys_of_find? hc⟩
      · obtain ⟨hk, hm⟩ := ih h
        exact ⟨fun h' => hk (List.mem_cons_of_mem _ h'), hm⟩

theorem nodup_interfacesFrom (visited queue : List Text) :
    ((ix.interfacesFrom visited queue).map ClassName.key).Nodup := by
  induction visited, queue using interfacesFrom.induct ix with
  | case1 visited => rw [interfacesFrom_nil]; exact List.nodup_nil
  | case2 visited n queue hv ih => rw [interfacesFrom_visited hv]; exact ih
  | case3 visited n queue hv hc ih => rw [interfacesFrom_unknown hc]; exact ih
  | case4 visited n queue hv c hc ih =>
      rw [interfacesFrom_known hv hc, List.map_cons, List.nodup_cons]
      refine ⟨?_, ih⟩
      intro hk
      obtain ⟨m, hm, hkm⟩ := List.mem_map.mp hk
      exact (key_notMem_of_mem_interfacesFrom hm).1 (hkm ▸ List.mem_cons_self)

/-- A search with a queue meets new keys only, each at most once. -/
theorem nodup_taken_interfacesFrom (q : Queue) :
    (q.taken ++ (ix.interfacesFrom q.taken q.waiting).map ClassName.key).Nodup := by
  refine List.nodup_append.mpr ⟨q.distinct.of_append_left, nodup_interfacesFrom _ _, ?_⟩
  rintro k hk k' hk' rfl
  obtain ⟨n, hn, rfl⟩ := List.mem_map.mp hk'
  exact (key_notMem_of_mem_interfacesFrom hn).1 hk

/-! ### Levels -/

/-- The known names whose keys are not among those seen, each key once, with their classes. -/
def level (ix : ClassIndex) (seen : List Text) : List Text → List (Text × ClassDecl)
  | [] => []
  | name :: names =>
    if ClassName.key name ∈ seen then ix.level seen names
    else
      match ix.find? name with
      | none => ix.level seen names
      | some c => (name, c) :: ix.level (ClassName.key name :: seen) names

theorem mem_level {seen names : List Text} {a : Text × ClassDecl} (h : a ∈ ix.level seen names) :
    ix.find? a.1 = some a.2 ∧ ClassName.key a.1 ∉ seen := by
  induction names generalizing seen with
  | nil => cases h
  | cons name names ih =>
      unfold level at h
      split_ifs at h with hs
      · exact ih h
      · cases hc : ix.find? name with
        | none => rw [hc] at h; exact ih h
        | some c =>
            rw [hc] at h
            rcases List.mem_cons.mp h with rfl | h
            · exact ⟨hc, hs⟩
            · obtain ⟨hf, hk⟩ := ih h
              exact ⟨hf, fun h' => hk (List.mem_cons_of_mem _ h')⟩

/-- The keys of a level. -/
def levelKeys (level : List (Text × ClassDecl)) : List Text :=
  level.map fun a => ClassName.key a.1

/-- The keys of a level that is not empty were unvisited before it. -/
theorem length_unvisited_level_lt {seen names : List Text} (h : ix.level seen names ≠ []) :
    (ix.unvisited (levelKeys (ix.level seen names) ++ seen)).length < (ix.unvisited seen).length := by
  obtain ⟨a, ha⟩ := List.exists_mem_of_ne_nil _ h
  obtain ⟨hf, hs⟩ := mem_level ha
  have hk : ClassName.key a.1 ∈ levelKeys (ix.level seen names) := List.mem_map_of_mem ha
  refine Nat.lt_of_le_of_lt ?_ (length_unvisited_cons_lt (key_mem_keys_of_find? hf) hs)
  apply List.Sublist.length_le
  apply List.monotone_filter_right
  intro k hk'
  simp only [Bool.not_eq_true', List.contains_eq_mem, decide_eq_false_iff_not, List.mem_append,
    List.mem_cons, not_or] at hk' ⊢
  exact ⟨fun he => hk'.1 (he ▸ hk), hk'.2⟩

/-- The known names of a list, then the interfaces that they extend, level by level.  Every key comes
once. -/
def levelOrder (ix : ClassIndex) (seen names : List Text) : List Text :=
  if _h : ix.level seen names = [] then []
  else
    (ix.level seen names).map Prod.fst ++
      ix.levelOrder (levelKeys (ix.level seen names) ++ seen)
        ((ix.level seen names).flatMap fun a => a.2.interfaceNames)
termination_by (ix.unvisited seen).length
decreasing_by exact length_unvisited_level_lt _h

/-- The queue takes the names at its front as one level, and puts the interfaces that they extend behind
the rest. -/
theorem interfacesFrom_append (ix : ClassIndex) (visited names rest : List Text) :
    ix.interfacesFrom visited (names ++ rest) =
      (ix.level visited names).map Prod.fst ++
        ix.interfacesFrom (levelKeys (ix.level visited names) ++ visited)
          (rest ++ (ix.level visited names).flatMap fun a => a.2.interfaceNames) := by
  induction names generalizing visited rest with
  | nil => simp [level, levelKeys]
  | cons name names ih =>
      rw [List.cons_append, level]
      by_cases hv : ClassName.key name ∈ visited
      · rw [interfacesFrom_visited hv, if_pos hv, ih]
      · rw [if_neg hv]
        cases hc : ix.find? name with
        | none => rw [interfacesFrom_unknown hc, ih]
        | some c =>
            rw [interfacesFrom_known hv hc, List.append_assoc, ih]
            simp only [List.map_cons, List.cons_append, List.flatMap_cons, List.append_assoc]
            congr 2
            apply interfacesFrom_congr
            intro k _
            simp only [levelKeys, List.map_cons, List.mem_append, List.mem_cons]
            tauto

theorem interfacesFrom_eq_levelOrder (visited names : List Text) :
    ix.interfacesFrom visited names = ix.levelOrder visited names := by
  induction visited, names using levelOrder.induct ix with
  | case1 visited names h =>
      have ha := interfacesFrom_append ix visited names []
      rw [List.append_nil, h] at ha
      rw [levelOrder, dif_pos h, ha]
      simp [interfacesFrom_nil]
  | case2 visited names h ih =>
      have ha := interfacesFrom_append ix visited names []
      rw [List.append_nil, List.nil_append, ih] at ha
      rw [levelOrder, dif_neg h, ha]

/-- The names that the search for interfaces starts from. -/
def firstInterfaces (ix : ClassIndex) (c : ClassDecl) : List Text :=
  c.interfaceNames ++ (ix.ancestry c).ancestors.flatMap fun a => a.2.interfaceNames

/-- **Interfaces are asked level by level.** -/
theorem interfaceOrder_eq_levelOrder (c : ClassDecl) :
    ix.interfaceOrder c = ix.levelOrder [] (ix.firstInterfaces c) :=
  interfacesFrom_eq_levelOrder [] (ix.firstInterfaces c)

end ClassIndex

end ApiPages
