import QueueScaler.Proofs.Pipeline.CyclicFlow
/-!
# The order of the expansions

The last bit of a rate depends on the order in which its shares are added up, so that order is part
of what propagation promises. The walk through an acyclic wiring expands the origin and every queue
it reaches once, each after all its producers. From the moment when a queue gets ready nothing is
added to it any more, so it is expanded at its final inflow. Nothing is assumed of the arithmetic.

## Main definitions

* `Wiring.walk`, `Wiring.expansions`: the end of the walk from an origin, and the queues that it
  has expanded, first to last.
* `Wiring.Flow.LeadsTo`: the states of a walk between two expansions.
* `Wiring.Flow.PassesThrough`: all its states, delivery by delivery.

## Main results

* `Wiring.Walking.get?_inflow_leadsTo`: what a queue that is ready has received is final.
* `Wiring.Flow.PassesThrough.get?_rates`: rates and inflow agree at every moment.
* `Wiring.getD_gathered_eq_foldl`: a rate as a sum in the order of the expansions.
* `Pipeline.expansions_in_order`: all of this for the pipelines.
-/

namespace QueueScaler

namespace Wiring

variable {R : Type} {w : Wiring R} {origin p q : String}

/-- A queue of a list that respects the feeders has its own feeders among the earlier ones. -/
theorem Sequenced.mem_earlier {earlier later : List String}
    (h : w.Sequenced origin (later ++ q :: earlier)) (hp : p ∈ w.feeders origin q) :
    p ∈ earlier := by
  induction later with
  | nil => exact h.1 p hp
  | cons _ later ih => exact ih h.2

variable [Zero R] [Add R] [Mul R] {x : R}

/-! ### The states of a walk -/

namespace Flow

variable {s f g : Flow R}

/-- A walk comes from one state to another in whole expansions. -/
def LeadsTo (w : Wiring R) : Flow R → Flow R → Prop :=
  Relation.ReflTransGen fun f g ↦ f.expand? w = some g

/-- A walk passes through a state: between two expansions, or within one, when the queue has been
taken out and some of its edges, in name order, have delivered. -/
inductive PassesThrough (w : Wiring R) (s : Flow R) : Flow R → Prop
  /-- Between two expansions. -/
  | between {f : Flow R} (h : LeadsTo w s f) : PassesThrough w s f
  /-- Within an expansion. -/
  | within {f : Flow R} {queue : String} {ready : List String} {edges : List (String × R)}
    (h : LeadsTo w s f) (hready : f.ready = queue :: ready)
    (hedges : edges <+: (w.edges queue).entries) :
    PassesThrough w s (edges.foldl (deliver (f.inflow.getD queue 0))
      { f with ready, expanded := queue :: f.expanded })

/-- The walk leads to its end. -/
theorem leadsTo_run (f : Flow R) : LeadsTo w f (f.run w) := by
  fun_induction Flow.run w f with
  | case1 f _ => exact .refl
  | case2 f g hg ih => exact .head hg ih

theorem run_eq_of_expand? (h : f.expand? w = some g) : f.run w = g.run w := by
  rw [Flow.run.eq_def]
  split
  · rename_i hnone
    cases h.symm.trans hnone
  · rename_i next hnext
    rw [Option.some.inj (h.symm.trans hnext)]

/-- Wherever the walk leads, it ends alike from there. -/
theorem run_eq_of_leadsTo (h : LeadsTo w f g) : f.run w = g.run w := by
  induction h with
  | refl => rfl
  | tail _ hexpand ih => exact ih.trans (run_eq_of_expand? hexpand)

/-- A delivery adds the same to the rate and to the inflow of a queue. -/
theorem get?_rates_foldl_deliver {rate : R} {edges : List (String × R)}
    (h : f.rates.get? q = f.inflow.get? q) :
    (edges.foldl (deliver rate) f).rates.get? q =
      (edges.foldl (deliver rate) f).inflow.get? q := by
  induction edges generalizing f with
  | nil => exact h
  | cons e edges ih =>
    refine ih ?_
    rw [deliver, rates_settle, inflow_settle, Table.get?_alter, Table.get?_alter]
    by_cases hq : q = e.1
    · rw [← hq, h]
    · rw [if_neg hq, if_neg hq, h]

end Flow

namespace Walking

variable {f g : Flow R}

/-- Wherever a walk leads, it keeps its invariant. -/
theorem leadsTo (h : w.Walking origin x f) (hfree : w.feeders origin origin = ∅)
    (hg : Flow.LeadsTo w f g) : w.Walking origin x g := by
  induction hg with
  | refl => exact h
  | tail _ hexpand ih => exact ih.expand hfree hexpand

/-- A queue that is ready or expanded stays so. -/
theorem mem_expand (hg : f.expand? w = some g) (hq : q ∈ f.expanded ++ f.ready) :
    q ∈ g.expanded ++ g.ready := by
  obtain ⟨queue, ready, hready, hexpanded, hfresh, -⟩ := Flow.of_expand? hg
  rw [hready] at hq
  rw [hexpanded, hfresh, ← List.append_assoc]
  exact List.mem_append_left _ (List.perm_middle.mem_iff.mp hq)

/-- **What a queue that is ready has received is final:** no later expansion adds to it. -/
theorem get?_inflow_leadsTo (h : w.Walking origin x f) (hfree : w.feeders origin origin = ∅)
    (hg : Flow.LeadsTo w f g) (hq : q ∈ f.expanded ++ f.ready) :
    g.inflow.get? q = f.inflow.get? q := by
  induction hg using Relation.ReflTransGen.head_induction_on with
  | refl => rfl
  | head hexpand _ ih =>
    exact (ih (h.expand hfree hexpand) (mem_expand hexpand hq)).trans
      (h.get?_inflow_expand hexpand hq)

end Walking

/-- **Rates and inflow agree at every moment,** except for the origin, whose own rate is none of the
rates downstream. -/
theorem Flow.PassesThrough.get?_rates {s f : Flow R} (h : Flow.PassesThrough w s f)
    (hs : w.Walking origin x s) (hfree : w.feeders origin origin = ∅) (hq : q ≠ origin) :
    f.rates.get? q = f.inflow.get? q := by
  have hbetween {f : Flow R} (hf : Flow.LeadsTo w s f) : f.rates.get? q = f.inflow.get? q := by
    rw [(hs.leadsTo hfree hf).inflow, if_neg hq]
  cases h with
  | between h => exact hbetween h
  | within h _ _ =>
    have hf := hbetween h
    exact Flow.get?_rates_foldl_deliver hf

/-- **What a queue gathers** is a sum from zero, over its producers in the order of the
expansions. -/
theorem getD_gathered_eq_foldl (inflow : String → R) (q : String) (order : List String) :
    (w.gathered inflow q order.reverse).getD 0 =
      (order.filter (w.Produces · q)).foldl
        (fun sum p ↦ sum + (w.edges p).getD q 0 * inflow p) 0 := by
  induction order using List.reverseRecOn with
  | nil => rfl
  | append_singleton order p ih =>
    rw [List.reverse_append, List.reverse_singleton, List.singleton_append, gathered,
      List.filter_append, List.foldl_append, ← ih]
    by_cases hp : w.Produces p q
    · obtain ⟨rate, hrate⟩ := produces_iff_get?.mp hp
      simp [received, hrate, hp, Table.getD_eq]
    · rw [received_of_not_produces hp]
      simp [hp]

/-! ### The walk from an origin -/

/-- The end of the walk from an origin. -/
def walk (w : Wiring R) (origin : String) (x : R) : Flow R :=
  (Flow.start origin x (w.inDegrees origin)).run w

/-- The queues that the walk from an origin expands, first to last. -/
def expansions (w : Wiring R) (origin : String) (x : R) : List String :=
  (w.walk origin x).expanded.reverse

/-- Where propagation succeeds, the rates are those at the end of the walk. -/
theorem propagate_eq_walk (ho : origin ∈ w) {rates : Table R}
    (h : w.propagate origin x = .ok rates) : rates = (w.walk origin x).rates := by
  rw [propagate, if_neg (not_not.mpr ho)] at h
  simp only at h
  split at h
  · cases h
  · split at h
    · cases h
    · exact (Except.ok.inj h).symm

end Wiring

open Wiring in
/-- **The walk through a pipeline is in topological order,** in any arithmetic. Let a managed queue
be drained at any rate. Propagation succeeds, with the rates at the end of the walk. The walk
expands the origin and every queue it reaches, each once, and each after all those of its producers
that belong to them. At every moment of the walk, within expansions too, rates and inflow hold the
same for every queue but the origin. A queue comes up for expansion with its final inflow. And the
rate of a queue reached is the sum, begun at zero and taken over its producers in the order of their
expansions, of the shares of their final inflows. -/
theorem Pipeline.expansions_in_order {R : Type} [Rate R] (p : Pipeline R) {origin : String}
    (ho : origin ∈ p.wiring) (x : R) :
    let start := Flow.start origin x (p.wiring.inDegrees origin)
    let final := p.wiring.walk origin x
    let order := p.wiring.expansions origin x
    p.wiring.propagate origin x = .ok final.rates ∧
    Ends (Flow.round p.wiring) start (.ok final) ∧
    (order.Nodup ∧ ∀ q, q ∈ order ↔ q = origin ∨ p.wiring.Reaches origin q) ∧
    (∀ earlier q later, order = earlier ++ q :: later →
      ∀ r ∈ order, p.wiring.Produces r q → r ∈ earlier) ∧
    (∀ f, Flow.PassesThrough p.wiring start f →
      ∀ q, q ≠ origin → f.rates.get? q = f.inflow.get? q) ∧
    (∀ f queue ready, Flow.LeadsTo p.wiring start f → f.ready = queue :: ready →
      f.inflow.get? queue = final.inflow.get? queue) ∧
    ∀ q, p.wiring.Reaches origin q →
      final.rates.get? q = some ((order.filter (p.wiring.Produces · q)).foldl
        (fun sum r ↦ sum + (p.wiring.edges r).getD q 0 * final.inflow.getD r 0) 0) := by
  intro start final order
  have hfree : p.wiring.feeders origin origin = ∅ := (p.acyclic.acyclicFrom origin).feeders_self
  have hstart : p.wiring.Walking origin x start := .start ho hfree x
  obtain ⟨hwalk, hready⟩ : p.wiring.Walking origin x final ∧ final.ready = [] := hstart.run hfree
  obtain ⟨rates, hrates⟩ := exists_propagate p.acyclic origin x
  obtain rfl : rates = final.rates := propagate_eq_walk ho hrates
  have hsequenced : p.wiring.Sequenced origin final.expanded := hstart.sequenced hfree trivial
  have hexpanded (q : String) : q ∈ final.expanded ↔ p.wiring.Touches origin q :=
    hwalk.mem_expanded (p.acyclic.acyclicFrom origin) hready
  refine ⟨hrates, hstart.ends hfree, ⟨?_, fun q ↦ ?_⟩, ?_, fun f hf q hq ↦ ?_, ?_, fun q hq ↦ ?_⟩
  · exact List.nodup_reverse.mpr (List.nodup_append.mp hwalk.nodup).1
  · exact List.mem_reverse.trans (hexpanded q)
  · intro earlier q later hsplit r hr hproduces
    have hreverse : final.expanded = (earlier ++ q :: later).reverse :=
      List.reverse_eq_iff.mp hsplit
    rw [hreverse, List.reverse_append, List.reverse_cons, List.append_assoc] at hsequenced
    have hfeeds := mem_feeders.mpr ⟨(hexpanded r).mp (List.mem_reverse.mp hr), hproduces⟩
    exact List.mem_reverse.mp (hsequenced.mem_earlier hfeeds)
  · exact hf.get?_rates hstart hfree hq
  · intro f queue ready hf hqueue
    have hfinal : Flow.LeadsTo p.wiring f final := by
      rw [show final = f.run p.wiring from Flow.run_eq_of_leadsTo hf]
      exact Flow.leadsTo_run f
    refine ((hstart.leadsTo hfree hf).get?_inflow_leadsTo hfree hfinal ?_).symm
    rw [hqueue]
    exact List.mem_append_right _ List.mem_cons_self
  · obtain ⟨rate, hrate⟩ := Table.mem_iff_get?.mp ((mem_propagate p.acyclic hrates).mpr hq)
    have hreverse : order.reverse = final.expanded := List.reverse_reverse _
    rw [← getD_gathered_eq_foldl, hreverse, ← hwalk.rates q, hrate, Option.getD_some]

/-- An archive that is fed by a reader, directly and through a batch. -/
def Pipeline.detour : Pipeline ℚ where
  wiring := .ofList
    [("in", ⟨"reader", 60, .ofList [("archive", 1 / 4), ("batch", 1 / 2)]⟩),
      ("batch", ⟨"packer", 30, .singleton "archive" (1 / 3)⟩), ("archive", .terminal)]
  valid := by cbv

/-- The archive comes before the batch in name order, but is expanded after it. The share of the
reader is the first in its sum. -/
theorem Pipeline.detour_archive_last :
    "in" ∈ detour.wiring ∧ detour.wiring.expansions "in" 60 = ["in", "batch", "archive"] ∧
      (detour.wiring.walk "in" 60).rates.get? "archive" =
        some (0 + 1 / 4 * 60 + 1 / 3 * (0 + 1 / 2 * 60)) := by
  have hin : "in" ∈ detour.wiring := by decide
  have horder : detour.wiring.expansions "in" 60 = ["in", "batch", "archive"] := by cbv
  have hreached : detour.wiring.Reaches "in" "archive" := Wiring.Produces.reaches (by decide)
  have hproducers : ["in", "batch", "archive"].filter (detour.wiring.Produces · "archive") =
      ["in", "batch"] := by decide
  have hshares : (detour.wiring.edges "in").getD "archive" 0 = 1 / 4 ∧
      (detour.wiring.edges "batch").getD "archive" 0 = 1 / 3 := by
    constructor <;> cbv
  have hinflow : (detour.wiring.walk "in" 60).inflow.getD "in" 0 = 60 ∧
      (detour.wiring.walk "in" 60).inflow.getD "batch" 0 = 0 + 1 / 2 * 60 := by
    constructor <;> cbv
  obtain ⟨-, -, -, -, -, -, hsum⟩ := detour.expansions_in_order hin 60
  have harchive : (detour.wiring.walk "in" 60).rates.get? "archive" =
      some (((detour.wiring.expansions "in" 60).filter (detour.wiring.Produces · "archive")).foldl
        (fun sum r ↦ sum + (detour.wiring.edges r).getD "archive" 0 *
          (detour.wiring.walk "in" 60).inflow.getD r 0) 0) := hsum "archive" hreached
  refine ⟨hin, horder, harchive.trans ?_⟩
  rw [horder, hproducers, List.foldl_cons, List.foldl_cons, List.foldl_nil, hshares.1, hshares.2,
    hinflow.1, hinflow.2]

end QueueScaler
