import ApiPages.Proofs.ClassName
import ApiPages.Proofs.Failure

/-! # Cycles in the hierarchy

A cycle is reported by a walk along the parents that comes back, or by a class that asks for one that is being
documented.  In both cases the keys that are compared belong to classes that lead to the current one
(`ClassIndex.Leading`), so the reported class leads to itself.

Conversely, a class whose parents come back asks only its ancestors, whose parents come back as well; so none of
them ever misses a donor. -/

namespace ApiPages

open SessionM

namespace ClassIndex

variable {ix : ClassIndex} {c p : ClassDecl} {name : Text} {keys : List Text}

theorem find?_display (ix : ClassIndex) (name : Text) :
    ix.find? (ClassName.display name) = ix.find? name :=
  find?_congr (ClassName.key_display name)

theorem find?_of_key (hc : c ∈ ix.classes) (hk : c.key = ClassName.key name) :
    ix.find? name = some c :=
  (find?_congr hk.symm).trans (find?_name_of_mem hc)

/-! ### Keys that lead to a class -/

/-- Every key is that of a known class from which `c` is reached. -/
def Leading (ix : ClassIndex) (keys : List Text) (c : ClassDecl) : Prop :=
  ∀ k ∈ keys, ∃ q ∈ ix.classes, q.key = k ∧ ix.Reaches q c

theorem Leading.start (hc : c ∈ ix.classes) : ix.Leading [c.key] c := by
  intro k hk
  exact ⟨c, hc, (List.mem_singleton.mp hk).symm, .refl⟩

theorem Leading.cons (h : ix.Leading keys c) (hf : ix.find? name = some p) (hcp : ix.LeadsTo c p) :
    ix.Leading (ClassName.key name :: keys) p := by
  intro k hk
  rcases List.mem_cons.mp hk with rfl | hk
  · exact ⟨p, mem_of_find? hf, key_eq_of_find? hf, .refl⟩
  · obtain ⟨q, hq, hqk, hqc⟩ := h k hk
    exact ⟨q, hq, hqk, hqc.trans hcp.to_reflTransGen⟩

theorem Leading.exists_cycle (h : ix.Leading keys c) (hk : ClassName.key name ∈ keys)
    (hc : ∀ p, ix.find? name = some p → ix.LeadsTo c p) :
    ∃ q, ix.find? name = some q ∧ ix.LeadsTo c q ∧ ix.LeadsTo q q := by
  obtain ⟨q, hq, hqk, hqc⟩ := h _ hk
  have hf := find?_of_key hq hqk
  exact ⟨q, hf, hc q hf, .trans_right hqc (hc q hf)⟩

/-- The name at which the parents come back is that of a class on a cycle. -/
theorem Leading.cycle_of_loop (h : ix.Leading keys c) (hl : (ix.ancestryFrom keys c).loop = some name) :
    ∃ q, ix.find? name = some q ∧ ix.LeadsTo c q ∧ ix.LeadsTo q q := by
  induction keys, c using ancestryFrom.induct ix with
  | case1 keys c hp => rw [ancestryFrom_root hp] at hl; cases hl
  | case2 keys c n hp hv =>
      rw [ancestryFrom_loop hp hv] at hl
      cases hl
      exact h.exists_cycle hv fun p hf => .single ⟨name, .inl hp, hf⟩
  | case3 keys c n hp hv hf => rw [ancestryFrom_unknown hp hv hf] at hl; cases hl
  | case4 keys c n hp hv p hf ih =>
      have hstep : ix.Refers c p := ⟨n, .inl hp, hf⟩
      rw [ancestryFrom_known hp hv hf] at hl
      obtain ⟨q, hq, hpq, hqq⟩ := ih (h.cons hf (.single hstep)) hl
      exact ⟨q, hq, .head hstep hpq, hqq⟩

/-! ### Parents that come back -/

theorem Loops.of_mem_ancestors (h : ix.Loops c) (hm : (name, p) ∈ (ix.ancestryFrom keys c).ancestors) :
    ix.Loops p := by
  induction keys, c using ancestryFrom.induct ix with
  | case1 keys c hp => rw [ancestryFrom_root hp] at hm; cases hm
  | case2 keys c n hp hv => rw [ancestryFrom_loop hp hv] at hm; cases hm
  | case3 keys c n hp hv hf => rw [ancestryFrom_unknown hp hv hf] at hm; cases hm
  | case4 keys c n hp hv q hf ih =>
      obtain ⟨q', hcq, hloops⟩ := h.exists_extends
      obtain rfl := hcq.unique ⟨n, hp, hf⟩
      rw [ancestryFrom_known hp hv hf] at hm
      rcases List.mem_cons.mp hm with hm | hm
      · obtain ⟨rfl, rfl⟩ := Prod.mk.inj hm
        exact hloops
      · exact ih hloops hm

theorem Loops.of_asks (h : ix.Loops c) (ha : ix.Asks c name) (hf : ix.find? name = some p) :
    ix.Loops p := by
  rcases ha with ha | ⟨hl, _⟩
  · obtain ⟨⟨n, q⟩, hq, rfl⟩ := List.mem_map.mp ha
    rw [find?_of_mem_ancestors hq] at hf
    cases hf
    exact h.of_mem_ancestors hq
  · obtain ⟨n, hn⟩ := loop_of_loops h
    rw [ancestry, hn] at hl
    cases hl

end ClassIndex

namespace Codebase

variable {cb : Codebase} {root c : ClassDecl} {chain : List Text} {keep : MethodDecl → Bool} {s : Session}

theorem Nesting.leading (hroot : root ∈ cb.index.classes) (h : cb.Nesting root chain c) :
    cb.index.Leading chain c := by
  induction h with
  | root => exact .start hroot
  | ask _ ha _ hf ih => exact ih.cons hf (ClassIndex.leadsTo_of_mem_searchOrder ha.mem_searchOrder hf)

theorem Nesting.mem_classes (hroot : root ∈ cb.index.classes) (h : cb.Nesting root chain c) :
    c ∈ cb.index.classes :=
  mem_classes_of_reaches hroot h.reaches

theorem Nesting.loops (hroot : cb.index.Loops root) (h : cb.Nesting root chain c) : cb.index.Loops c := by
  induction h with
  | root => exact hroot
  | ask _ ha _ hf ih => exact ih.of_asks ha hf

theorem Failure.exists_cycle {name : Text} (hroot : root ∈ cb.index.classes)
    (h : cb.Failure keep root (.cycle name)) :
    ∃ q, cb.index.find? name = some q ∧ cb.index.Reaches root q ∧ cb.index.LeadsTo q q := by
  cases h with
  | loop hn hl =>
      have hstart := ClassIndex.Leading.start (hn.mem_classes hroot)
      obtain ⟨q, hq, hcq, hqq⟩ := hstart.cycle_of_loop hl
      exact ⟨q, hq, hn.reaches.trans hcq.to_reflTransGen, hqq⟩
  | back hn ha hk =>
      obtain ⟨q, hq, hcq, hqq⟩ := (hn.leading hroot).exists_cycle hk fun p hf =>
        ClassIndex.leadsTo_of_mem_searchOrder ha.mem_searchOrder hf
      exact ⟨q, (cb.index.find?_display _).trans hq, hn.reaches.trans hcq.to_reflTransGen, hqq⟩

/-- Where the parents come back, only a cycle can be reported. -/
theorem Failure.eq_cycle_of_loops {e : DocError} (hroot : cb.index.Loops root)
    (h : cb.Failure keep root e) : ∃ name, e = .cycle name := by
  cases h with
  | noDonor hn _ _ _ hnone =>
      obtain ⟨n, hl⟩ := ClassIndex.loop_of_loops (hn.loops hroot)
      have hnl := (findDonor_eq_none hnone).1
      rw [ClassIndex.ancestry, hl] at hnl
      cases hnl
  | loop _ _ => exact ⟨_, rfl⟩
  | back _ _ _ => exact ⟨_, rfl⟩

/-- **A reported cycle is a cycle, and parents that come back are never taken for a missing donor.**  If a
request fails with a cycle, then the class that it names is reached from the requested one and leads to itself
through parents and interfaces.  If the parents of the requested class are all known and come back to one of
them, then the request gives the class or reports a cycle. -/
theorem Reached.cycle_reports_exact (hs : cb.Reached s) (hchain : s.chain = [])
    (keep : MethodDecl → Bool) (name : Text) :
    (∀ n s', Returns (cb.documentM keep name) s (.error (.cycle n)) s' →
      ∃ c q, cb.index.find? name = some c ∧ cb.index.find? n = some q ∧ cb.index.Reaches c q ∧
        cb.index.LeadsTo q q) ∧
    (∀ c, cb.index.find? name = some c → cb.index.Loops c →
      ∃ r s', Returns (cb.documentM keep name) s r s' ∧
        ((∃ doc, r = .ok doc) ∨ ∃ n, r = .error (.cycle n))) := by
  refine ⟨?_, ?_⟩
  · intro n s' h
    rcases hs.exists_failure hchain h with he | ⟨c, hf, hfail⟩
    · cases he
    · obtain ⟨q, hq⟩ := hfail.exists_cycle (ClassIndex.mem_of_find? hf)
      exact ⟨c, q, hf, hq⟩
  · intro c hf hloops
    obtain ⟨s', h, _⟩ := documentM_eq_document keep name hs.valid hchain
    refine ⟨_, s', h, ?_⟩
    cases hd : cb.document keep name with
    | ok doc => exact .inl ⟨doc, rfl⟩
    | error e =>
        obtain ⟨n, rfl⟩ := (failure_of_document hf hd).eq_cycle_of_loops hloops
        exact .inr ⟨n, rfl⟩

/-! ### A class that extends its own child -/

namespace Circle

def worker : ClassDecl := { name := "Worker", parent := some "Base", methods := [inheriting "halt"] }

/-- The parent, which has no method to inherit from. -/
def base : ClassDecl := { name := "Base", parent := some "WORKER" }

end Circle

def circle : Codebase :=
  ⟨⟨[Circle.worker, Circle.base], by decide⟩, ⟨fun _ => .error .missing⟩⟩

theorem circle_loops : circle.index.Loops Circle.worker := by
  have hup : circle.index.Extends Circle.worker Circle.base :=
    ⟨"\\Base".toList, by decide +kernel, by decide +kernel⟩
  have hdown : circle.index.Extends Circle.base Circle.worker :=
    ⟨"\\WORKER".toList, by decide +kernel, by decide +kernel⟩
  exact ⟨Circle.worker, .refl, .head hup (.single hdown)⟩

/-- The class comes back to itself under another spelling, which is the one that is reported. -/
theorem circle_cycle_reports_exact :
    ∃ s', circle.Reached {} ∧
      Returns (circle.documentM keepAll "Worker") {} (.error (.cycle "\\WORKER")) s' ∧
      (∃ c q, circle.index.find? "Worker" = some c ∧ circle.index.find? "\\WORKER" = some q ∧
        circle.index.Reaches c q ∧ circle.index.LeadsTo q q) ∧
      circle.index.Loops Circle.worker ∧
      ∃ r s', Returns (circle.documentM keepAll "Worker") {} r s' ∧
        ((∃ doc, r = .ok doc) ∨ ∃ n, r = .error (.cycle n)) := by
  have hs : circle.Reached {} := .start
  have hanswer : circle.document keepAll "Worker" = .error (.cycle "\\WORKER") := by decide +kernel
  obtain ⟨s', hr, _⟩ := documentM_eq_document keepAll "Worker" hs.valid rfl
  rw [hanswer] at hr
  obtain ⟨hcycle, hloops⟩ := hs.cycle_reports_exact rfl keepAll "Worker"
  exact ⟨s', hs, hr, hcycle _ s' hr, circle_loops, hloops Circle.worker (by decide +kernel) circle_loops⟩

end Codebase

end ApiPages
