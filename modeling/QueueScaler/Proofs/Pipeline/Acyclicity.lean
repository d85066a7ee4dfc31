import QueueScaler.Pipeline.Basic
import QueueScaler.Proofs.Pipeline.Reachability
/-!
# A pipeline is acyclic

The depth-first search marks a queue done only after all its targets are done. So the production
edges below a queue that is done cannot be followed forever, and when the search has marked every
managed queue without closing a cycle, the wiring is acyclic.

## Main definitions

* `Wiring.Accounted`: what has become of the targets of the queues on the path.
* `Wiring.Explored`: the invariant of the search.

## Main results

* `Wiring.explored_search`: a search that closes no cycle leaves only queues that are done.
* `Wiring.acyclic_of_findCycle?`, `Pipeline.acyclic`: what passes the check is acyclic.
-/

namespace QueueScaler

namespace Wiring

variable {R : Type} {w : Wiring R} {marks : Table Mark} {path : List Frame}

/-! ### The invariant of the search -/

/-- Every target of a queue on the path is done, still to be followed, or the queue above it on the
path. -/
def Accounted (w : Wiring R) (marks : Table Mark) : Option String → List Frame → Prop
  | _, [] => True
  | above, f :: path =>
    (∀ t, w.Produces f.queue t →
      marks.get? t = some .done ∨ t ∈ f.pending ∨ above = some t) ∧
    Accounted w marks (some f.queue) path

/-- The invariant of the search, with the queues on its path. -/
structure Explored (w : Wiring R) (marks : Table Mark) (path : List Frame) : Prop where
  /-- A queue that is being visited is on the path. -/
  visiting : ∀ q, marks.get? q = some .visiting → q ∈ path.map Frame.queue
  /-- The edges below a queue that is done come to an end. -/
  done : ∀ q, marks.get? q = some .done → Acc (fun t p ↦ w.Produces p t) q
  /-- No target of a queue on the path has been left out. -/
  accounted : w.Accounted marks none path

theorem Accounted.mono {marks' : Table Mark}
    (h : ∀ t, marks.get? t = some .done → marks'.get? t = some .done) {above : Option String}
    (ha : w.Accounted marks above path) : w.Accounted marks' above path := by
  induction path generalizing above with
  | nil => trivial
  | cons f path ih => exact ⟨fun t ht ↦ (ha.1 t ht).imp_left (h t), ih ha.2⟩

/-- The queue above a path need not be told apart once it is done. -/
theorem Accounted.forget {queue : String} (h : marks.get? queue = some .done)
    (ha : w.Accounted marks (some queue) path) : w.Accounted marks none path := by
  cases path with
  | nil => trivial
  | cons f path =>
    refine ⟨fun t ht ↦ ?_, ha.2⟩
    rcases ha.1 t ht with hd | hp | he
    · exact .inl hd
    · exact .inr (.inl hp)
    · exact .inl (Option.some.inj he ▸ h)

theorem get?_insert_done {queue t : String} (h : marks.get? t = some .done) :
    (marks.insert queue .done).get? t = some .done := by
  rw [Table.get?_insert]
  split
  · rfl
  · exact h

namespace Explored

variable {queue target : String} {pending : List String}

/-- A queue whose edges have all been followed is done. -/
theorem close (h : Explored w marks (⟨queue, []⟩ :: path)) :
    Explored w (marks.insert queue .done) path where
  visiting q hq := by
    rw [Table.get?_insert] at hq
    split at hq
    · exact absurd hq (by simp)
    · rename_i hne
      exact (List.mem_cons.mp (h.visiting q hq)).resolve_left hne
  done q hq := by
    rw [Table.get?_insert] at hq
    split at hq
    · rename_i he
      subst he
      refine Acc.intro q fun t ht ↦ ?_
      rcases h.accounted.1 t ht with hd | hp | ha
      · exact h.done t hd
      · exact absurd hp List.not_mem_nil
      · exact absurd ha (by simp)
    · exact h.done q hq
  accounted := by
    have hdone : (marks.insert queue .done).get? queue = some .done := Table.get?_insert_self ..
    exact (h.accounted.2.mono fun t ↦ get?_insert_done).forget hdone

/-- An edge to a queue that is done needs no following. -/
theorem skip (h : Explored w marks (⟨queue, target :: pending⟩ :: path))
    (hd : marks.get? target = some .done) : Explored w marks (⟨queue, pending⟩ :: path) where
  visiting := h.visiting
  done := h.done
  accounted := by
    refine ⟨fun t ht ↦ ?_, h.accounted.2⟩
    rcases h.accounted.1 t ht with hdone | hp | ha
    · exact .inl hdone
    · rcases List.mem_cons.mp hp with rfl | hp
      · exact .inl hd
      · exact .inr (.inl hp)
    · exact absurd ha (by simp)

/-- A queue met for the first time is put on the path, above the queue whose edge led to it. -/
theorem enter (hvisiting : ∀ q, marks.get? q = some .visiting → q ∈ path.map Frame.queue)
    (hdone : ∀ q, marks.get? q = some .done → Acc (fun t p ↦ w.Produces p t) q)
    (haccounted : w.Accounted marks (some target) path) (hnew : marks.get? target = none) :
    Explored w (marks.insert target .visiting) (⟨target, w.targets target⟩ :: path) where
  visiting q hq := by
    rw [Table.get?_insert] at hq
    split at hq
    · rename_i he
      exact he ▸ List.mem_cons_self
    · exact List.mem_cons_of_mem _ (hvisiting q hq)
  done q hq := by
    rw [Table.get?_insert] at hq
    split at hq
    · exact absurd hq (by simp)
    · exact hdone q hq
  accounted := by
    refine ⟨fun t ht ↦ .inr (.inl ht), haccounted.mono fun t ht ↦ ?_⟩
    rw [Table.get?_insert, if_neg, ht]
    rintro rfl
    exact absurd (hnew.symm.trans ht) (by simp)

/-- An edge to a queue met for the first time is followed. -/
theorem push (h : Explored w marks (⟨queue, target :: pending⟩ :: path))
    (hnew : marks.get? target = none) :
    Explored w (marks.insert target .visiting)
      (⟨target, w.targets target⟩ :: ⟨queue, pending⟩ :: path) := by
  refine enter h.visiting h.done ⟨fun t ht ↦ ?_, h.accounted.2⟩ hnew
  rcases h.accounted.1 t ht with hd | hp | ha
  · exact .inl hd
  · rcases List.mem_cons.mp hp with rfl | hp
    · exact .inr (.inr rfl)
    · exact .inr (.inl hp)
  · exact absurd ha (by simp)

/-- A queue that is not managed has no edges, so it is done at once. -/
theorem pass (h : Explored w marks path) (hw : target ∉ w) (hnew : marks.get? target = none) :
    Explored w (marks.insert target .done) path where
  visiting q hq := by
    rw [Table.get?_insert] at hq
    split at hq
    · exact absurd hq (by simp)
    · exact h.visiting q hq
  done q hq := by
    rw [Table.get?_insert] at hq
    split at hq
    · rename_i he
      subst he
      exact Acc.intro q fun t ht ↦ absurd ht.mem hw
    · exact h.done q hq
  accounted := h.accounted.mono fun t ↦ get?_insert_done

end Explored

/-! ### From one search to all -/

/-- **A search that closes no cycle** ends with every queue it has met done, and forgets none. -/
theorem explored_search {final : Table Mark} (h : Explored w marks path)
    (hf : w.search marks path = .ok final) :
    Explored w final [] ∧ ∀ q ∈ marks, q ∈ final := by
  fun_induction search w marks path with
  | case1 marks =>
    cases hf
    exact ⟨h, fun q hq ↦ hq⟩
  | case2 marks queue path ih =>
    obtain ⟨hx, hm⟩ := ih h.close hf
    exact ⟨hx, fun q hq ↦ hm q (Table.mem_insert.mpr (.inr hq))⟩
  | case3 marks queue target pending path hv => cases hf
  | case4 marks queue target pending path hd ih => exact ih (h.skip hd) hf
  | case5 marks queue target pending path hnew hw ih =>
    obtain ⟨hx, hm⟩ := ih (h.push hnew) hf
    exact ⟨hx, fun q hq ↦ hm q (Table.mem_insert.mpr (.inr hq))⟩
  | case6 marks queue target pending path hnew hw ih =>
    obtain ⟨hx, hm⟩ := ih ((h.pass hw hnew).skip (Table.get?_insert_self ..)) hf
    exact ⟨hx, fun q hq ↦ hm q (Table.mem_insert.mpr (.inr hq))⟩

/-- A search from one queue meets that queue. -/
theorem explored_searchFrom {queue : String} {final : Table Mark} (h : Explored w marks [])
    (hf : w.searchFrom marks queue = .ok final) :
    Explored w final [] ∧ queue ∈ final ∧ ∀ q ∈ marks, q ∈ final := by
  unfold searchFrom at hf
  split at hf
  · rename_i hmem
    cases hf
    exact ⟨h, hmem, fun q hq ↦ hq⟩
  · rename_i hnew
    have hstart := Explored.enter h.visiting h.done trivial (Table.not_mem_iff_get?.mp hnew)
    obtain ⟨hx, hm⟩ := explored_search hstart hf
    exact ⟨hx, hm queue (Table.mem_insert.mpr (.inl rfl)),
      fun q hq ↦ hm q (Table.mem_insert.mpr (.inr hq))⟩

theorem explored_foldlM {queues : List String} {final : Table Mark} (h : Explored w marks [])
    (hf : queues.foldlM w.searchFrom marks = .ok final) :
    Explored w final [] ∧ (∀ q ∈ queues, q ∈ final) ∧ ∀ q ∈ marks, q ∈ final := by
  induction queues generalizing marks with
  | nil =>
    cases hf
    exact ⟨h, fun q hq ↦ absurd hq List.not_mem_nil, fun q hq ↦ hq⟩
  | cons queue queues ih =>
    rw [List.foldlM_cons] at hf
    cases hs : w.searchFrom marks queue with
    | error q =>
      rw [hs] at hf
      cases hf
    | ok next =>
      rw [hs] at hf
      obtain ⟨hx, hqueue, hold⟩ := explored_searchFrom h hs
      obtain ⟨hfinal, hqueues, hnext⟩ := ih hx hf
      refine ⟨hfinal, fun q hq ↦ ?_, fun q hq ↦ hnext q (hold q hq)⟩
      rcases List.mem_cons.mp hq with rfl | hq
      · exact hnext q hqueue
      · exact hqueues q hq

/-- Before the first search nothing has been met. -/
theorem explored_nil : Explored w ∅ [] :=
  ⟨fun _ hq ↦ absurd hq (by simp), fun _ hq ↦ absurd hq (by simp), trivial⟩

/-- **A wiring in which the search closes no cycle is acyclic.** -/
theorem acyclic_of_findCycle? (h : w.findCycle? = none) : w.Acyclic := by
  unfold findCycle? at h
  split at h
  · exact absurd h (by simp)
  · rename_i final hf
    obtain ⟨hx, hmem, -⟩ := explored_foldlM explored_nil hf
    refine acyclic_of_wellFounded_targets ⟨fun q ↦ ?_⟩
    by_cases hq : q ∈ w
    · obtain ⟨mark, hmark⟩ := Table.mem_iff_get?.mp (hmem q (Table.mem_keys_iff.mpr hq))
      cases mark with
      | visiting => exact absurd (hx.visiting q hmark) List.not_mem_nil
      | done => exact hx.done q hmark
    · exact Acc.intro q fun t ht ↦ absurd ht.mem hq

end Wiring

/-- **The wiring of a pipeline is acyclic.** -/
theorem Pipeline.acyclic {R : Type} [Rate R] (p : Pipeline R) : p.wiring.Acyclic := by
  have hvalid := p.valid
  unfold Wiring.fault? at hvalid
  split at hvalid
  · exact absurd hvalid (by simp)
  · exact Wiring.acyclic_of_findCycle? (Option.map_eq_none_iff.mp hvalid)

end QueueScaler
