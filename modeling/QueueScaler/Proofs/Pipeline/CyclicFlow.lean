import Mathlib
import QueueScaler.Proofs.Loop
import QueueScaler.Proofs.Pipeline.Validity
import QueueScaler.Proofs.Pipeline.Walk
/-!
# Propagation in a wiring that may have cycles

Nothing here assumes that the wiring is acyclic. The edges are counted in a loop over a worklist,
and the walk is a loop over the ready queues, in which every delivery takes one from the count of
its target. Both loops end, and no count ever falls below zero. A queue is expanded only after all
its feeders, so no queue that lies on a cycle, or behind one, is ever expanded. Hence propagation
fails exactly if a cycle can be reached from the origin, which is the verdict of the depth-first
search as well.

## Main definitions

* `Wiring.Census`, `Wiring.Census.round`: the count of the edges, one queue of the worklist a round.
* `Wiring.Flow.deliverCounted`, `Wiring.Flow.round`: the walk, one ready queue a round, in which a
  delivery fails if no edge is left to deliver.
* `Wiring.Sequenced`: whether each queue of a list comes after all its feeders.

## Main results

* `Wiring.Census.ends`, `Wiring.Walking.ends`: the loops end, with the count and the walk.
* `Wiring.propagate_eq_ok_iff`, `Wiring.propagate_eq_error_iff`: when propagation succeeds.
* `Wiring.cycle_verdicts_agree`: propagation and the depth-first search agree on every wiring.
-/

namespace QueueScaler.Wiring

variable {R : Type} {w : Wiring R} {origin q : String}

/-! ### Counting the edges, round by round -/

/-- The state of a count: the edges counted so far, and the queues met but not expanded. -/
structure Census where
  /-- The edges counted into each queue met. -/
  degrees : Table Nat
  /-- The worklist. -/
  pending : List String

namespace Census

/-- Counts one edge. A target met for the first time joins the worklist, managed or not. -/
def count (c : Census) (target : String) : Census where
  degrees := countEdge c.degrees target
  pending := if target ∈ c.degrees then c.pending else c.pending ++ [target]

/-- A round of the count expands the next queue of the worklist. -/
def round (w : Wiring R) (c : Census) : Except Empty (Option Census) :=
  match c.pending with
  | [] => .ok none
  | queue :: pending => .ok (some ((w.targets queue).foldl count ⟨c.degrees, pending⟩))

theorem foldl_count {targets : List String} (h : targets.Nodup) (c : Census) :
    targets.foldl count c =
      ⟨targets.foldl countEdge c.degrees, c.pending ++ targets.filter fun t ↦ t ∉ c.degrees⟩ := by
  induction targets generalizing c with
  | nil => simp
  | cons a targets ih =>
    have htargets := List.nodup_cons.mp h
    -- Counting one edge does not make any other target known.
    have hfilter : targets.filter (fun t ↦ t ∉ countEdge c.degrees a) =
        targets.filter fun t ↦ t ∉ c.degrees := by
      refine List.filter_congr fun t ht ↦ ?_
      have hne : t ≠ a := fun he ↦ htargets.1 (he ▸ ht)
      simp [countEdge, Table.mem_alter, hne]
    rw [List.foldl_cons, ih htargets.2, count, hfilter, List.foldl_cons, List.filter_cons]
    by_cases ha : a ∈ c.degrees <;> simp [ha]

/-- A queue that is not managed leaves the worklist without a trace. -/
theorem ends_cons_of_not_mem {queue : String} {degrees : Table Nat} {pending : List String}
    {outcome : Except Empty Census} (hq : queue ∉ w)
    (h : Ends (round w) ⟨degrees, pending⟩ outcome) :
    Ends (round w) ⟨degrees, queue :: pending⟩ outcome := by
  refine .next (t := ⟨degrees, pending⟩) ?_ h
  simp only [round, targets_of_not_mem hq, List.foldl_nil]

/-- **The count ends** with the edges of all managed queues that the worklist leads to. -/
theorem ends (w : Wiring R) (degrees : Table Nat) (pending : List String) :
    Ends (round w) ⟨degrees, pending⟩
      (.ok ⟨w.countInflows degrees (pending.filter (· ∈ w)), []⟩) := by
  generalize hmanaged : pending.filter (· ∈ w) = managed
  fun_induction countInflows w degrees managed generalizing pending with
  | case1 degrees =>
    -- No queue left is managed, so the rounds left change nothing.
    induction pending with
    | nil => exact .stop rfl
    | cons queue pending ih =>
      have hnone := List.filter_eq_nil_iff.mp hmanaged
      refine ends_cons_of_not_mem (by simpa using hnone queue List.mem_cons_self) (ih ?_)
      exact List.filter_eq_nil_iff.mpr fun q hq ↦ hnone q (List.mem_cons_of_mem _ hq)
  | case2 degrees queue managed targets fresh hcount =>
    induction pending with
    | nil => cases hmanaged
    | cons next pending ih =>
      by_cases hnext : next ∈ w
      · rw [List.filter_cons_of_pos (by simpa using hnext)] at hmanaged
        obtain ⟨rfl, rfl⟩ := List.cons.inj hmanaged
        refine .next ?_ (hcount (pending ++ fresh) ?_)
        · simp only [round, foldl_count (w.nodup_targets next)]
          rfl
        · exact List.filter_append ..
      · rw [List.filter_cons_of_neg (by simpa using hnext)] at hmanaged
        exact ends_cons_of_not_mem hnext (ih hmanaged)

end Census

/-! ### Queues after their feeders -/

/-- Whether each queue of a list, the latest first, comes after all its feeders. -/
def Sequenced (w : Wiring R) (origin : String) : List String → Prop
  | [] => True
  | queue :: earlier => (∀ p ∈ w.feeders origin queue, p ∈ earlier) ∧ Sequenced w origin earlier

namespace Sequenced

variable {order : List String} {p : String}

theorem mem_of_mem_feeders (h : w.Sequenced origin order) (hq : q ∈ order)
    (hp : p ∈ w.feeders origin q) : p ∈ order := by
  induction order with
  | nil => exact absurd hq List.not_mem_nil
  | cons queue earlier ih =>
    rcases List.mem_cons.mp hq with rfl | hq
    · exact List.mem_cons_of_mem _ (h.1 p hp)
    · exact List.mem_cons_of_mem _ (ih h.2 hq)

/-- Whatever reaches a queue of the list is in the list, if it is touched. -/
theorem mem_of_reaches (h : w.Sequenced origin order) (hq : q ∈ order)
    (htouch : w.Touches origin p) (hpq : w.Reaches p q) : p ∈ order := by
  induction hpq using Relation.TransGen.head_induction_on with
  | single hp => exact h.mem_of_mem_feeders hq (mem_feeders.mpr ⟨htouch, hp⟩)
  | head hp _ ih =>
    exact h.mem_of_mem_feeders (ih (htouch.tail hp)) (mem_feeders.mpr ⟨htouch, hp⟩)

/-- No queue of the list lies on a cycle: it would have to come before itself. -/
theorem not_reaches (h : w.Sequenced origin order) (hnodup : order.Nodup)
    (htouched : ∀ p ∈ order, w.Touches origin p) (hq : q ∈ order) : ¬ w.Reaches q q := by
  induction order with
  | nil => exact absurd hq List.not_mem_nil
  | cons queue earlier ih =>
    obtain ⟨hnew, hearlier⟩ := List.nodup_cons.mp hnodup
    rcases List.mem_cons.mp hq with rfl | hq
    · intro hcycle
      have htouch := htouched q List.mem_cons_self
      obtain ⟨p, hqp, hp⟩ := hcycle.exists_producer
      have hfeeds : p ∈ earlier := h.1 p (mem_feeders.mpr ⟨htouch.trans hqp, hp⟩)
      rcases hqp with rfl | hqp
      · exact hnew hfeeds
      · exact hnew (h.2.mem_of_reaches hfeeds htouch hqp)
    · exact ih h.2 hearlier (fun p hp ↦ htouched p (List.mem_cons_of_mem _ hp)) hq

end Sequenced

/-! ### The walk, round by round -/

/-- A delivery to a queue that no edge is left to deliver to. -/
structure Overdelivery where
  /-- The queue. -/
  target : String

namespace Flow

variable [Zero R] [Add R] [Mul R] {rate : R} {f : Flow R}

/-- Delivers along one edge and counts it as delivered, which fails if the count is at zero. -/
def deliverCounted (rate : R) (f : Flow R) (edge : String × R) : Except Overdelivery (Flow R) :=
  if f.waiting.get? edge.1 = some 0 then .error ⟨edge.1⟩ else .ok (f.deliver rate edge)

/-- A round of the walk expands the next ready queue. -/
def round (w : Wiring R) (f : Flow R) : Except Overdelivery (Option (Flow R)) :=
  match f.ready with
  | [] => .ok none
  | queue :: ready =>
    ((w.edges queue).entries.foldlM (deliverCounted (f.inflow.getD queue 0))
      { f with ready, expanded := queue :: f.expanded }).map some

/-- No delivery fails if every target has an edge left to deliver. -/
theorem foldlM_deliverCounted {edges : List (String × R)} (hnodup : (edges.map Prod.fst).Nodup)
    (h : ∀ e ∈ edges, f.waiting.get? e.1 ≠ some 0) :
    edges.foldlM (deliverCounted rate) f = .ok (edges.foldl (deliver rate) f) := by
  induction edges generalizing f with
  | nil => rfl
  | cons e edges ih =>
    have hedges := List.nodup_cons.mp hnodup
    have hrest : ∀ e' ∈ edges, (f.deliver rate e).waiting.get? e'.1 ≠ some 0 := by
      intro e' he'
      have hne : e'.1 ≠ e.1 := fun heq ↦ hedges.1 (heq ▸ List.mem_map_of_mem he')
      rw [deliver, get?_waiting_settle, if_neg hne]
      exact h e' (List.mem_cons_of_mem _ he')
    rw [List.foldlM_cons, deliverCounted, if_neg (h e List.mem_cons_self), List.foldl_cons]
    exact ih hedges.2 hrest

end Flow

section Walks

variable [Zero R] [Add R] [Mul R] {x : R} {f : Flow R}

namespace Walking

/-- **No count falls below zero:** in a walk that an origin without feeders has started, every
target of the next ready queue has an edge left to deliver. -/
theorem waiting_ne_zero (h : w.Walking origin x f) {queue t : String} {ready : List String}
    (hready : f.ready = queue :: ready) (ht : w.Produces queue t) :
    f.waiting.get? t ≠ some 0 := by
  obtain ⟨hnew, htouch, -⟩ := h.next hready
  have hleft : queue ∈ w.feeders origin t \ f.expanded.toFinset :=
    Finset.mem_sdiff.mpr ⟨mem_feeders.mpr ⟨htouch, ht⟩, fun he ↦ hnew (List.mem_toFinset.mp he)⟩
  intro hzero
  have hcard := h.waiting t
  rw [Table.getD_eq, hzero, Option.getD_some, eq_comm, Finset.card_eq_zero] at hcard
  exact absurd hleft (hcard ▸ Finset.notMem_empty _)

/-- A round expands the next ready queue, and never fails. -/
theorem round (h : w.Walking origin x f) : f.round w = .ok (f.expand? w) := by
  rcases hready : f.ready with _ | ⟨queue, ready⟩
  · simp only [Flow.round, Flow.expand?, hready]
  · have hdeliver : (w.edges queue).entries.foldlM (Flow.deliverCounted (f.inflow.getD queue 0))
        { f with ready, expanded := queue :: f.expanded } = .ok _ :=
      Flow.foldlM_deliverCounted (w.nodup_targets queue)
        fun e he ↦ h.waiting_ne_zero hready (List.mem_map_of_mem he)
    simp only [Flow.round, Flow.expand?, hready, hdeliver]
    rfl

/-- **The walk ends,** and no delivery fails. -/
theorem ends (h : w.Walking origin x f) (hfree : w.feeders origin origin = ∅) :
    Ends (Flow.round w) f (.ok (f.run w)) := by
  fun_induction Flow.run w f with
  | case1 f hf => exact .stop (by rw [h.round, hf])
  | case2 f g hg ih => exact .next (by rw [h.round, hg]) (ih (h.expand hfree hg))

end Walking

/-- The walk expands each queue after all its feeders. -/
theorem Walking.sequenced (h : w.Walking origin x f) (hfree : w.feeders origin origin = ∅)
    (hf : w.Sequenced origin f.expanded) : w.Sequenced origin (f.run w).expanded := by
  fun_induction Flow.run w f with
  | case1 f _ => exact hf
  | case2 f g hg ih =>
    obtain ⟨queue, ready, hready, hexp, -⟩ := Flow.of_expand? hg
    have hmem : queue ∈ f.expanded ++ f.ready :=
      List.mem_append_right _ (hready ▸ List.mem_cons_self)
    refine ih (h.expand hfree hg) ?_
    rw [hexp]
    exact ⟨((h.mem_iff queue).mp hmem).2, hf⟩

/-! ### When propagation succeeds -/

/-- A walk that expands as many queues as the count lists has met no cycle. -/
theorem acyclicFrom_of_propagate (ho : origin ∈ w) {rates : Table R}
    (h : w.propagate origin x = .ok rates) : w.AcyclicFrom origin := by
  rw [propagate, if_neg (not_not.mpr ho)] at h
  simp only at h
  split at h
  · cases h
  · rename_i hdegree
    split at h
    · cases h
    · rename_i hlength
      have hfree : w.feeders origin origin = ∅ := by
        rwa [Nat.not_lt, Nat.le_zero, getD_inDegrees ho, Finset.card_eq_zero] at hdegree
      have hstart := Walking.start ho hfree x
      obtain ⟨hfinal, hready⟩ := hstart.run hfree
      have hsequenced := hstart.sequenced hfree trivial
      set final := (Flow.start origin x (w.inDegrees origin)).run w
      have hnodup : final.expanded.Nodup := (List.nodup_append.mp hfinal.nodup).1
      have htouched : ∀ q ∈ final.expanded, w.Touches origin q := fun q hq ↦
        ((hfinal.mem_iff q).mp (List.mem_append_left _ hq)).1
      have hsubset : final.expanded ⊆ (w.inDegrees origin).keys := fun q hq ↦
        Table.mem_keys_iff.mpr ((mem_inDegrees ho).mpr (htouched q hq))
      have hperm : final.expanded.Perm (w.inDegrees origin).keys := by
        refine (hnodup.subperm hsubset).perm_of_length_le ?_
        rw [Table.keys, List.length_map]
        exact Nat.le_of_not_lt hlength
      intro q hq
      have hmem : q ∈ final.expanded :=
        hperm.mem_iff.mpr (Table.mem_keys_iff.mpr ((mem_inDegrees ho).mpr hq))
      exact hsequenced.not_reaches hnodup htouched hmem

/-- **Propagation succeeds exactly if no cycle can be reached from the origin.** -/
theorem propagate_eq_ok_iff :
    (∃ rates, w.propagate origin x = .ok rates) ↔ w.AcyclicFrom origin := by
  by_cases ho : origin ∈ w
  · refine ⟨fun ⟨_, h⟩ ↦ acyclicFrom_of_propagate ho h, fun hw ↦ ?_⟩
    obtain ⟨_, rates, h, -⟩ := hw.exists_walked ho x
    exact ⟨rates, h⟩
  · exact iff_of_true ⟨∅, by rw [propagate, if_pos ho]⟩ (acyclicFrom_of_not_mem ho)

/-- Propagation fails in one way only. -/
theorem eq_of_propagate_eq_error {fault : CyclicFlow} (h : w.propagate origin x = .error fault) :
    fault = ⟨origin⟩ := by
  rw [propagate] at h
  split at h
  · cases h
  · simp only at h
    split at h
    · exact (Except.error.inj h).symm
    · split at h
      · exact (Except.error.inj h).symm
      · cases h

/-- **Propagation fails exactly if a cycle can be reached from the origin.** -/
theorem propagate_eq_error_iff :
    w.propagate origin x = .error ⟨origin⟩ ↔ ¬ w.AcyclicFrom origin := by
  rw [← propagate_eq_ok_iff (x := x)]
  rcases h : w.propagate origin x with fault | rates
  · obtain rfl := eq_of_propagate_eq_error h
    simp
  · simp

end Walks

/-- **The two checks for cycles agree,** on every wiring and in any arithmetic. Let a managed queue
be drained at any rate. The count of the edges ends, with the numbers that the walk starts from.
Unless an edge leads back to the origin, when no walk starts, the walk ends as well, and in none of
its deliveries the count of the target is at zero. Propagation fails if a production cycle can be
reached from the origin, and succeeds otherwise. So it succeeds from every origin of a pipeline, and
a wiring whose rates are fit is rejected as a pipeline exactly if propagation fails from some
origin. -/
theorem cycle_verdicts_agree [Rate R] (w : Wiring R) :
    (∀ origin ∈ w, ∀ x : R,
      Ends (Census.round w) ⟨.singleton origin 0, [origin]⟩ (.ok ⟨w.inDegrees origin, []⟩) ∧
      ((w.inDegrees origin).getD origin 0 = 0 →
        Ends (Flow.round w) (.start origin x (w.inDegrees origin))
          (.ok ((Flow.start origin x (w.inDegrees origin)).run w))) ∧
      (w.propagate origin x = .error ⟨origin⟩ ↔ ∃ q, w.Touches origin q ∧ w.Reaches q q) ∧
      ((∃ rates, w.propagate origin x = .ok rates) ↔
        ¬ ∃ q, w.Touches origin q ∧ w.Reaches q q)) ∧
    (∀ (p : Pipeline R) (origin : String) (x : R),
      ∃ rates, p.wiring.propagate origin x = .ok rates) ∧
    (w.RatesFit →
      ((∃ fault, Pipeline.ofWiring w = .error fault) ↔
        ∃ origin x, w.propagate origin x = .error ⟨origin⟩)) := by
  have hcycle (origin : String) :
      w.AcyclicFrom origin ↔ ¬ ∃ q, w.Touches origin q ∧ w.Reaches q q := by
    rw [AcyclicFrom, not_exists]
    exact forall_congr' fun q ↦ not_and.symm
  refine ⟨fun origin ho x ↦ ⟨?_, fun hdegree ↦ ?_, ?_, ?_⟩, fun p origin x ↦ ?_, fun hfit ↦ ?_⟩
  · have hcount := Census.ends w (.singleton origin 0) [origin]
    rwa [List.filter_cons_of_pos (by simpa using ho), List.filter_nil] at hcount
  · rw [getD_inDegrees ho, Finset.card_eq_zero] at hdegree
    exact (Walking.start ho hdegree x).ends hdegree
  · rw [propagate_eq_error_iff, hcycle, not_not]
  · rw [propagate_eq_ok_iff, hcycle]
  · exact exists_propagate p.acyclic origin x
  · have hrejected : (∃ fault, Pipeline.ofWiring w = .error fault) ↔ ¬ w.Acyclic := by
      simp only [Pipeline.ofWiring_eq_error_iff, ← Option.ne_none_iff_exists', ne_eq,
        fault?_eq_none_iff, hfit, true_and]
    rw [hrejected, acyclic_iff_forall_acyclicFrom, not_forall]
    refine exists_congr fun origin ↦ ?_
    simp only [propagate_eq_error_iff]
    exact ⟨fun h ↦ ⟨0, h⟩, fun ⟨_, h⟩ ↦ h⟩

/-- A queue whose messages end up going to and fro between two others. -/
def eddy : Wiring ℚ :=
  .ofList [("in", ⟨"reader", 60, .singleton "left" (1 / 2)⟩),
    ("left", ⟨"turner", 60, .singleton "right" 1⟩), ("right", ⟨"turner", 60, .singleton "left" 1⟩)]

/-- The walk from the inlet of an eddy starts, since no edge leads back there. It ends without the
eddy, so propagation fails, and the wiring is rejected. -/
theorem eddy_rejected :
    "in" ∈ eddy ∧ (eddy.inDegrees "in").getD "in" 0 = 0 ∧ eddy.RatesFit ∧
      Ends (Flow.round eddy) (.start "in" 90 (eddy.inDegrees "in"))
        (.ok ((Flow.start "in" 90 (eddy.inDegrees "in")).run eddy)) ∧
      eddy.propagate "in" 90 = .error ⟨"in"⟩ ∧ ∃ fault, Pipeline.ofWiring eddy = .error fault := by
  have hin : "in" ∈ eddy := by decide
  have hdegree : (eddy.inDegrees "in").getD "in" 0 = 0 := by cbv
  have hfit : eddy.RatesFit := rateFault?_eq_none_iff.mp (by cbv)
  have hleft : eddy.Reaches "left" "left" :=
    .head (q := "right") (by decide) (Produces.reaches (by decide))
  have hreached : eddy.Reaches "in" "left" := Produces.reaches (by decide)
  obtain ⟨horigins, -, hrejected⟩ := cycle_verdicts_agree eddy
  obtain ⟨-, hwalk, hfails, -⟩ := horigins "in" hin 90
  have hcyclic := hfails.mpr ⟨"left", .inr hreached, hleft⟩
  exact ⟨hin, hdegree, hfit, hwalk hdegree, hcyclic, (hrejected hfit).mpr ⟨"in", 90, hcyclic⟩⟩

end QueueScaler.Wiring
