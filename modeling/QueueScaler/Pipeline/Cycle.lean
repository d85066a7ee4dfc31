import QueueScaler.Pipeline.Wiring
/-!
# Finding a production cycle

A depth-first search over the production edges. It keeps the path from the queue it started at,
innermost queue first, each with the edges still to be followed, and a mark on every queue it has
met: a queue is being visited as long as it lies on the path, and done afterwards. An edge to a
queue that is being visited closes a cycle.

## Main definitions

* `Wiring.Mark`, `Wiring.Frame`: the marks, and the queues on the path.
* `Wiring.search`: the search from a path, to its end or to the first edge that closes a cycle.
* `Wiring.findCycle?`: the search from every managed queue in name order.
-/

namespace QueueScaler.Wiring

variable {R : Type}

/-- How far the search is with a queue. -/
inductive Mark where
  /-- On the path. -/
  | visiting
  /-- Left behind, with everything downstream of it. -/
  | done
  deriving DecidableEq, Repr

/-- A queue on the path. -/
structure Frame where
  /-- The queue. -/
  queue : String
  /-- The targets of its edges still to be followed. -/
  pending : List String

/-- The queues on a path and their edges still to be followed. -/
def weight (path : List Frame) : Nat := path.foldr (fun f n ↦ f.pending.length + 1 + n) 0

/-- Follows the edges of a path depth first. The answer is the target of the first edge that closes
a cycle, or the marks when the path is used up. A target that is not managed has no edges, so it is
done at once. -/
def search (w : Wiring R) (marks : Table Mark) : List Frame → Except String (Table Mark)
  | [] => .ok marks
  | ⟨queue, []⟩ :: path => search w (marks.insert queue .done) path
  | ⟨queue, target :: pending⟩ :: path =>
    match _hm : marks.get? target with
    | some .visiting => .error target
    | some .done => search w marks (⟨queue, pending⟩ :: path)
    | none =>
      if _ht : target ∈ w then
        search w (marks.insert target .visiting)
          (⟨target, w.targets target⟩ :: ⟨queue, pending⟩ :: path)
      else search w (marks.insert target .done) (⟨queue, pending⟩ :: path)
  termination_by path => (w.unseen marks, weight path)
  decreasing_by
    · have h : w.unseen (marks.insert queue .done) ≤ w.unseen marks :=
        w.unseen_le fun q hq ↦ Table.mem_insert.mpr (.inr hq)
      rcases Nat.lt_or_eq_of_le h with h | h
      · exact Prod.Lex.left _ _ h
      · rw [h]; exact Prod.Lex.right _ (by simp [weight])
    · exact Prod.Lex.right _ (by simp [weight])
    · exact Prod.Lex.left _ _ (w.unseen_lt (fun q hq ↦ Table.mem_insert.mpr (.inr hq)) _ht
        (Table.not_mem_iff_get?.mpr _hm) (Table.mem_insert.mpr (.inl rfl)))
    · have h : w.unseen (marks.insert target .done) ≤ w.unseen marks :=
        w.unseen_le fun q hq ↦ Table.mem_insert.mpr (.inr hq)
      rcases Nat.lt_or_eq_of_le h with h | h
      · exact Prod.Lex.left _ _ h
      · rw [h]; exact Prod.Lex.right _ (by simp [weight])

/-- Searches from a queue, unless an earlier search has met it. -/
def searchFrom (w : Wiring R) (marks : Table Mark) (queue : String) :
    Except String (Table Mark) :=
  if queue ∈ marks then .ok marks
  else search w (marks.insert queue .visiting) [⟨queue, w.targets queue⟩]

/-- A queue on a production cycle: the target of the first edge that closes one, in the search from
every managed queue in name order. -/
def findCycle? (w : Wiring R) : Option String :=
  match w.keys.foldlM (searchFrom w) ∅ with
  | .error queue => some queue
  | .ok _ => none

end QueueScaler.Wiring
