import QueueScaler.Pipeline.Wiring
/-!
# Follow-up rates

Messages drained from a queue come back downstream, multiplied along each production edge. The part
of the wiring reachable from the origin is walked in topological order: a queue is expanded once
all its edges in that part have delivered, so it is expanded with its whole inflow, and its inflow
is the sum over all paths. Queues wait their turn first in, first out, and every sum starts at zero
and takes its terms in the order in which they are delivered.

## Main definitions

* `Wiring.countInflows`, `Wiring.inDegrees`: the edges into each reachable queue.
* `Wiring.Flow`, `Wiring.Flow.expand?`, `Wiring.Flow.run`: the state of the walk, one expansion, and
  the whole walk.
* `Wiring.propagate`: the rates downstream of an origin.
* `addRates`: one vector of rates added to another.

## Main results

* `Wiring.Flow.load_deliver_le`: a delivery never adds to the edges still to deliver and the queues
  waiting together, which is why the walk ends.
-/

namespace QueueScaler

variable {R : Type}

/-- Adds a vector of rates to another, name by name; a missing rate counts as zero. -/
def addRates [Zero R] [Add R] (into other : Table R) : Table R :=
  other.fold (fun sum queue rate ↦ sum.alter queue fun old ↦ old.getD 0 + rate) into

namespace Wiring

/-! ### Edges into each queue -/

/-- Counts one more edge into a queue. -/
def countEdge (degrees : Table Nat) (target : String) : Table Nat :=
  degrees.alter target fun n ↦ n.getD 0 + 1

theorem mem_foldl_countEdge {names : List String} {degrees : Table Nat} {q : String} :
    q ∈ names.foldl countEdge degrees ↔ q ∈ names ∨ q ∈ degrees := by
  induction names generalizing degrees with
  | nil => simp
  | cons a names ih =>
    rw [List.foldl_cons, ih, countEdge, Table.mem_alter, List.mem_cons]
    constructor
    · rintro (h | h | h)
      · exact .inl (.inr h)
      · exact .inl (.inl h)
      · exact .inr h
    · rintro ((h | h) | h)
      · exact .inr (.inl h)
      · exact .inl h
      · exact .inr (.inr h)

/-- Counts the edges out of the queues of a worklist. A target met for the first time joins the
worklist if it is managed. -/
def countInflows (w : Wiring R) (degrees : Table Nat) : List String → Table Nat
  | [] => degrees
  | queue :: pending =>
    let targets := w.targets queue
    let fresh := targets.filter fun t ↦ t ∉ degrees
    countInflows w (targets.foldl countEdge degrees) (pending ++ fresh.filter (· ∈ w))
  termination_by pending => (w.unseen degrees, pending.length)
  decreasing_by
    have hmono : ∀ q, q ∈ degrees → q ∈ (w.targets queue).foldl countEdge degrees :=
      fun q hq ↦ mem_foldl_countEdge.mpr (.inr hq)
    cases hf : fresh.filter (· ∈ w) with
    | nil =>
      rcases Nat.lt_or_eq_of_le (w.unseen_le hmono) with h | h
      · exact Prod.Lex.left _ _ h
      · rw [h]; exact Prod.Lex.right _ (by simp)
    | cons t rest =>
      have ht : t ∈ fresh.filter (· ∈ w) := hf ▸ List.mem_cons_self
      have ht := List.mem_filter.mp ht
      have hfresh := List.mem_filter.mp ht.1
      exact Prod.Lex.left _ _ (w.unseen_lt hmono (by simpa using ht.2)
        (by simpa using hfresh.2) (mem_foldl_countEdge.mpr (.inl hfresh.1)))

/-- For the origin and each queue reachable from it, the edges into it from that same part. -/
def inDegrees (w : Wiring R) (origin : String) : Table Nat :=
  countInflows w (.singleton origin 0) [origin]

/-! ### Walking in topological order -/

/-- The state of a walk. -/
structure Flow (R : Type) where
  /-- The rate delivered to each queue so far. -/
  rates : Table R
  /-- The same, with the origin's own rate. -/
  inflow : Table R
  /-- The edges into each queue that have not delivered yet. -/
  waiting : Table Nat
  /-- The queues whose whole inflow is known, next one first. -/
  ready : List String
  /-- The queues expanded so far, latest first. -/
  expanded : List String

namespace Flow

/-- Records that an edge into a queue has delivered; the last one makes the queue ready. -/
def settle (f : Flow R) (target : String) : Flow R :=
  match f.waiting.get? target with
  | some (n + 1) =>
    { f with
      waiting := f.waiting.insert target n
      ready := if n = 0 then f.ready ++ [target] else f.ready }
  | _ => f

/-- Delivers along one edge, out of a queue expanded at `rate`. -/
def deliver [Zero R] [Add R] [Mul R] (rate : R) (f : Flow R) (edge : String × R) : Flow R :=
  let share := edge.2 * rate
  settle
    { f with
      rates := f.rates.alter edge.1 fun old ↦ old.getD 0 + share
      inflow := f.inflow.alter edge.1 fun old ↦ old.getD 0 + share }
    edge.1

/-- The sum of some counts. -/
def total (counts : List Nat) : Nat := counts.foldr (· + ·) 0

/-- The edges still to deliver and the queues waiting to be expanded. -/
def load (f : Flow R) : Nat := total f.waiting.values + f.ready.length

private theorem total_alterEntries {name : String} {n : Nat} {l : List (String × Nat)}
    (h : l.Pairwise (fun a b ↦ a.1 < b.1))
    (hn : ((l.find? (fun e ↦ e.1 = name)).map Prod.snd) = some (n + 1)) :
    total ((Table.alterEntries name (fun _ ↦ n) l).map Prod.snd) + 1 = total (l.map Prod.snd) := by
  induction l with
  | nil => simp at hn
  | cons e rest ih =>
    obtain ⟨key, value⟩ := e
    have hrest := List.pairwise_cons.mp h
    by_cases hk : name = key
    · subst hk
      have : value = n + 1 := by simpa using hn
      subst this
      simp only [Table.alterEntries, String.lt_irrefl, if_false, if_true, List.map_cons, total,
        List.foldr_cons]
      omega
    · have hk' : ¬ key = name := fun h ↦ hk h.symm
      have hn' : (rest.find? (fun e ↦ e.1 = name)).map Prod.snd = some (n + 1) := by
        simpa [hk'] using hn
      have hlt : ¬ name < key := by
        intro hlt
        obtain ⟨p, hp, _⟩ := Option.map_eq_some_iff.mp hn'
        have hm := List.mem_of_find?_eq_some hp
        have hname : p.1 = name := by simpa using List.find?_some hp
        have : key < p.1 := hrest.1 p hm
        rw [hname] at this
        exact String.lt_asymm hlt this
      have := ih hrest.2 hn'
      simp only [total] at this
      simp only [Table.alterEntries, hlt, hk, if_false, List.map_cons, total, List.foldr_cons]
      omega

theorem load_settle_le (f : Flow R) (target : String) : (f.settle target).load ≤ f.load := by
  unfold settle
  split
  · rename_i n hn
    have hsum : total (f.waiting.insert target n).values + 1 = total f.waiting.values :=
      total_alterEntries f.waiting.ordered hn
    unfold load
    split
    · simp only [List.length_append, List.length_singleton]
      omega
    · simp only
      omega
  · exact Nat.le_refl _

theorem load_deliver_le [Zero R] [Add R] [Mul R] (rate : R) (f : Flow R) (edge : String × R) :
    (f.deliver rate edge).load ≤ f.load := load_settle_le _ _

private theorem load_foldl_deliver_le [Zero R] [Add R] [Mul R] (rate : R)
    (edges : List (String × R)) (f : Flow R) :
    (edges.foldl (deliver rate) f).load ≤ f.load := by
  induction edges generalizing f with
  | nil => exact Nat.le_refl _
  | cons e edges ih => exact Nat.le_trans (ih _) (load_deliver_le rate f e)

/-- Expands the next ready queue: it delivers along its edges, in name order. -/
def expand? [Zero R] [Add R] [Mul R] (w : Wiring R) (f : Flow R) : Option (Flow R) :=
  match f.ready with
  | [] => none
  | queue :: ready =>
    some ((w.edges queue).entries.foldl (deliver (f.inflow.getD queue 0))
      { f with ready := ready, expanded := queue :: f.expanded })

theorem load_expand?_lt [Zero R] [Add R] [Mul R] {w : Wiring R} {f g : Flow R}
    (h : f.expand? w = some g) : g.load < f.load := by
  unfold expand? at h
  split at h
  · exact absurd h (by simp)
  · rename_i queue ready hready
    rw [← Option.some.inj h]
    refine Nat.lt_of_le_of_lt (load_foldl_deliver_le ..) ?_
    simp [load, hready]

/-- Expands queues until none is ready. -/
def run [Zero R] [Add R] [Mul R] (w : Wiring R) (f : Flow R) : Flow R :=
  match _h : f.expand? w with
  | none => f
  | some g => run w g
  termination_by f.load
  decreasing_by exact load_expand?_lt _h

/-- The walk before its first expansion: the origin is ready. -/
def start (origin : String) (rate : R) (degrees : Table Nat) : Flow R where
  rates := ∅
  inflow := .singleton origin rate
  waiting := degrees
  ready := [origin]
  expanded := []

end Flow

/-- A production cycle is reachable from an origin, so its follow-up rates are not defined. -/
structure CyclicFlow where
  /-- The origin. -/
  origin : String
  deriving DecidableEq, Repr

/-- The rates that messages drained from an origin at `rate` cause downstream. Nothing comes of a
queue that is not managed. -/
def propagate [Zero R] [Add R] [Mul R] (w : Wiring R) (origin : String) (rate : R) :
    Except CyclicFlow (Table R) :=
  if origin ∉ w then .ok ∅
  else
    let degrees := w.inDegrees origin
    if 0 < degrees.getD origin 0 then .error ⟨origin⟩
    else
      let final := Flow.run w (.start origin rate degrees)
      if final.expanded.length < degrees.size then .error ⟨origin⟩ else .ok final.rates

end Wiring

end QueueScaler
