import QueueScaler.Proofs.Pipeline.Acyclicity
/-!
# What the search for a cycle finds

Each queue on the path of the depth-first search receives from the queue below it. So an edge from
the top of the path to a queue that is being visited, and therefore on the path, closes a production
cycle through that queue. Together with the other direction, that a search without such an edge
leaves an acyclic wiring, the search finds a queue exactly when there is a cycle.

## Main definitions

* `Wiring.Linked`: whether a path follows production edges.

## Main results

* `Wiring.reaches_of_search`: the queue that a search names lies on a cycle.
* `Wiring.findCycle?_eq_none_iff`: the search names no queue exactly when the wiring is acyclic.
-/

namespace QueueScaler.Wiring

variable {R : Type} {w : Wiring R} {marks : Table Mark} {path : List Frame} {f : Frame}
  {queue target q : String} {pending : List String}

/-- Whether each queue on a path receives from the one below it, and whatever is still to be
followed are edges of its queue. -/
def Linked (w : Wiring R) : List Frame → Prop
  | [] => True
  | f :: path =>
    (∀ t ∈ f.pending, w.Produces f.queue t) ∧ (∀ g ∈ path.head?, w.Produces g.queue f.queue) ∧
      Linked w path

namespace Linked

/-- Every queue of a path reaches the top of the path. -/
theorem reaches_top (h : w.Linked (f :: path)) (hq : q ∈ path.map Frame.queue) :
    w.Reaches q f.queue := by
  induction path generalizing f with
  | nil => exact absurd hq List.not_mem_nil
  | cons g path ih =>
    have hedge : w.Produces g.queue f.queue := h.2.1 g rfl
    rcases List.mem_cons.mp hq with rfl | hq
    · exact hedge.reaches
    · exact (ih h.2.2 hq).tail hedge

/-- An edge from the top of a path back to the path closes a cycle. -/
theorem reaches_self (h : w.Linked (⟨queue, target :: pending⟩ :: path))
    (htarget : target ∈ queue :: path.map Frame.queue) : w.Reaches target target := by
  have hedge : w.Produces queue target := h.1 target List.mem_cons_self
  rcases List.mem_cons.mp htarget with rfl | htarget
  · exact hedge.reaches
  · exact (h.reaches_top htarget).tail hedge

theorem skip (h : w.Linked (⟨queue, target :: pending⟩ :: path)) :
    w.Linked (⟨queue, pending⟩ :: path) :=
  ⟨fun t ht ↦ h.1 t (List.mem_cons_of_mem _ ht), h.2⟩

theorem push (h : w.Linked (⟨queue, target :: pending⟩ :: path)) :
    w.Linked (⟨target, w.targets target⟩ :: ⟨queue, pending⟩ :: path) := by
  refine ⟨fun t ht ↦ ht, fun g hg ↦ ?_, h.skip⟩
  cases hg
  exact h.1 target List.mem_cons_self

theorem single (w : Wiring R) (queue : String) : w.Linked [⟨queue, w.targets queue⟩] :=
  ⟨fun _ ht ↦ ht, fun _ hg ↦ absurd hg (Option.not_mem_none _), trivial⟩

end Linked

/-! ### From one search to all -/

/-- **A search that names a queue has found a cycle through it.** -/
theorem reaches_of_search (h : Explored w marks path) (hpath : w.Linked path)
    (hf : w.search marks path = .error q) : w.Reaches q q := by
  fun_induction search w marks path with
  | case1 marks => cases hf
  | case2 marks queue path ih => exact ih h.close hpath.2.2 hf
  | case3 marks queue target pending path hv =>
    cases hf
    exact hpath.reaches_self (h.visiting _ hv)
  | case4 marks queue target pending path hd ih => exact ih (h.skip hd) hpath.skip hf
  | case5 marks queue target pending path hnew hw ih => exact ih (h.push hnew) hpath.push hf
  | case6 marks queue target pending path hnew hw ih =>
    exact ih ((h.pass hw hnew).skip (Table.get?_insert_self ..)) hpath.skip hf

theorem reaches_of_searchFrom (h : Explored w marks []) (hf : w.searchFrom marks queue = .error q) :
    w.Reaches q q := by
  unfold searchFrom at hf
  split at hf
  · cases hf
  · rename_i hnew
    have hstart := Explored.enter h.visiting h.done trivial (Table.not_mem_iff_get?.mp hnew)
    exact reaches_of_search hstart (.single w queue) hf

theorem reaches_of_foldlM {queues : List String} (h : Explored w marks [])
    (hf : queues.foldlM w.searchFrom marks = .error q) : w.Reaches q q := by
  induction queues generalizing marks with
  | nil => cases hf
  | cons queue queues ih =>
    rw [List.foldlM_cons] at hf
    cases hs : w.searchFrom marks queue with
    | error p =>
      rw [hs] at hf
      cases hf
      exact reaches_of_searchFrom h hs
    | ok next =>
      rw [hs] at hf
      exact ih (explored_searchFrom h hs).1 hf

/-- **The queue that the search names lies on a cycle.** -/
theorem reaches_of_findCycle? (h : w.findCycle? = some q) : w.Reaches q q := by
  unfold findCycle? at h
  split at h
  · rename_i p hf
    cases h
    exact reaches_of_foldlM explored_nil hf
  · cases h

/-- **The search names no queue exactly when the wiring is acyclic.** -/
theorem findCycle?_eq_none_iff : w.findCycle? = none ↔ w.Acyclic := by
  refine ⟨acyclic_of_findCycle?, fun hw ↦ Option.eq_none_iff_forall_ne_some.mpr fun q hq ↦ ?_⟩
  exact hw q (reaches_of_findCycle? hq)

end QueueScaler.Wiring
