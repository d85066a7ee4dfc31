import QueueScaler.Pipeline.Wiring
/-!
# The queues downstream of a queue

Everything that a queue's messages can turn into, by one or more production edges. The traversal
goes breadth first and expands each managed queue once.

## Main definitions

* `Wiring.spread`: the traversal from some queues, given those already met.
* `Wiring.downstream`: the queues reachable from a queue, without that queue itself.
-/

namespace QueueScaler.Wiring

variable {R : Type}

/-- Expands the queues of a worklist, first in, first out. A target joins the names met when it is
new and not the origin, and joins the worklist when it is managed as well. -/
def spread (w : Wiring R) (origin : String) (met : NameSet) : List String → NameSet
  | [] => met
  | queue :: pending =>
    let fresh := (w.targets queue).filter fun t ↦ t ≠ origin ∧ t ∉ met
    spread w origin (fresh.foldl NameSet.add met) (pending ++ fresh.filter (· ∈ w))
  termination_by pending => (w.unseen met, pending.length)
  decreasing_by
    have hmono : ∀ q, q ∈ met → q ∈ fresh.foldl NameSet.add met :=
      fun q hq ↦ NameSet.mem_foldl_add.mpr (.inr hq)
    cases hf : fresh.filter (· ∈ w) with
    | nil =>
      rcases Nat.lt_or_eq_of_le (w.unseen_le hmono) with h | h
      · exact Prod.Lex.left _ _ h
      · rw [h]; exact Prod.Lex.right _ (by simp)
    | cons t rest =>
      have ht : t ∈ fresh.filter (· ∈ w) := hf ▸ List.mem_cons_self
      have ht := List.mem_filter.mp ht
      have hfresh := (List.mem_filter.mp ht.1).2
      exact Prod.Lex.left _ _ (w.unseen_lt hmono (by simpa using ht.2)
        (by simp only [decide_eq_true_eq] at hfresh; exact hfresh.2)
        (NameSet.mem_foldl_add.mpr (.inl ht.1)))

/-- The queues reachable from a queue by one or more production edges, without that queue. -/
def downstream (w : Wiring R) (queue : String) : NameSet := spread w queue ∅ [queue]

end QueueScaler.Wiring
