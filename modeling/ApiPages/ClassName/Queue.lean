import ApiPages.ClassName

/-! # Names that are met once

A walk through classes meets every key at most once.  `Trail` holds the keys that it has met, and `Queue`
also the names that are still waiting; that no key is there twice is part of both. -/

namespace ApiPages

namespace ClassName

/-- The names whose keys are not among those seen, and of several names with one key the first. -/
def fresh (seen : List Text) : List Text → List Text
  | [] => []
  | name :: names =>
    if key name ∈ seen then fresh seen names else name :: fresh (key name :: seen) names

theorem mem_fresh {seen names : List Text} {name : Text} (h : name ∈ fresh seen names) :
    name ∈ names ∧ key name ∉ seen := by
  induction names generalizing seen with
  | nil => cases h
  | cons n names ih =>
      unfold fresh at h
      split at h
      · obtain ⟨hm, hs⟩ := ih h
        exact ⟨List.mem_cons_of_mem n hm, hs⟩
      · rename_i hn
        rcases List.mem_cons.mp h with rfl | h
        · exact ⟨List.mem_cons_self, hn⟩
        · obtain ⟨hm, hs⟩ := ih h
          exact ⟨List.mem_cons_of_mem n hm, fun hk => hs (List.mem_cons_of_mem _ hk)⟩

theorem nodup_fresh (seen names : List Text) : ((fresh seen names).map key).Nodup := by
  induction names generalizing seen with
  | nil => exact List.nodup_nil
  | cons name names ih =>
      unfold fresh
      split
      · exact ih seen
      · rw [List.map_cons, List.nodup_cons]
        refine ⟨?_, ih _⟩
        rw [List.mem_map]
        rintro ⟨n, hn, hk⟩
        exact (mem_fresh hn).2 (hk ▸ List.mem_cons_self)

end ClassName

/-- The keys that a walk has met. -/
structure Trail where
  keys : List Text
  distinct : keys.Nodup

namespace Trail

/-- The trail of a walk that starts at a key. -/
def start (key : Text) : Trail :=
  ⟨[key], List.nodup_cons.mpr ⟨List.not_mem_nil, List.nodup_nil⟩⟩

/-- Meets a class that was not met before. -/
def add (t : Trail) (name : Text) (h : ClassName.key name ∉ t.keys) : Trail :=
  ⟨ClassName.key name :: t.keys, List.nodup_cons.mpr ⟨h, t.distinct⟩⟩

end Trail

/-- Names that are waiting, and the keys of those that were taken. -/
structure Queue where
  taken : List Text
  waiting : List Text
  distinct : (taken ++ waiting.map ClassName.key).Nodup

namespace Queue

def empty : Queue :=
  ⟨[], [], List.nodup_nil⟩

/-- The keys of all names that ever were in the queue. -/
def seen (q : Queue) : List Text :=
  q.taken ++ q.waiting.map ClassName.key

theorem nodup_seen_append_fresh (q : Queue) (names : List Text) :
    (q.taken ++ (q.waiting ++ ClassName.fresh q.seen names).map ClassName.key).Nodup := by
  rw [List.map_append, ← List.append_assoc, List.nodup_append]
  refine ⟨q.distinct, ClassName.nodup_fresh q.seen names, ?_⟩
  rintro k hk k' hk' rfl
  obtain ⟨n, hn, rfl⟩ := List.mem_map.mp hk'
  exact (ClassName.mem_fresh hn).2 hk

/-- Puts names at the end of the queue, except those with a key that was there before. -/
def add (q : Queue) (names : List Text) : Queue :=
  ⟨q.taken, q.waiting ++ ClassName.fresh q.seen names, q.nodup_seen_append_fresh names⟩

theorem nodup_of_waiting {q : Queue} {name : Text} {rest : List Text} (h : q.waiting = name :: rest) :
    (ClassName.key name :: q.taken ++ rest.map ClassName.key).Nodup := by
  have hd := q.distinct
  rw [h, List.map_cons] at hd
  exact List.perm_middle.nodup_iff.mp hd

/-- Takes the first name that is waiting. -/
def next? (q : Queue) : Option (Text × Queue) :=
  match h : q.waiting with
  | [] => none
  | name :: rest => some (name, ⟨ClassName.key name :: q.taken, rest, nodup_of_waiting h⟩)

theorem next?_eq_none {q : Queue} (h : q.waiting = []) : q.next? = none := by
  unfold next?
  split <;> simp_all

theorem next?_eq_some {q : Queue} {name : Text} {rest : List Text} (h : q.waiting = name :: rest) :
    q.next? = some (name, ⟨ClassName.key name :: q.taken, rest, nodup_of_waiting h⟩) := by
  unfold next?
  split
  · rename_i h'
    rw [h] at h'
    cases h'
  · rename_i h'
    obtain ⟨rfl, rfl⟩ := List.cons.inj (h'.symm.trans h)
    rfl

end Queue

end ApiPages
