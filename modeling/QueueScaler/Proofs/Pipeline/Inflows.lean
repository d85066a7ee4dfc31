import Mathlib.Data.List.Count
import QueueScaler.Pipeline.Propagation
import QueueScaler.Proofs.Pipeline.Reachability
/-!
# The edges into each queue of a reachable part

Before a walk starts, the edges into each queue are counted, as far as they come from the origin or
from a queue it reaches. The count is exact: the table lists the origin and what it reaches, each
with the number of producers it has in that part.

## Main definitions

* `Wiring.Touches`: the origin and what it reaches.
* `Wiring.AcyclicFrom`: whether no production cycle is reachable from an origin.
* `Wiring.feeders`: the producers of a queue in the part that an origin touches.
* `Wiring.Counting`: the invariant of the count.

## Main results

* `Wiring.mem_inDegrees`, `Wiring.getD_inDegrees`: the names of the table, and its counts.
-/

namespace QueueScaler.Wiring

variable {R : Type} {w : Wiring R} {p q t origin : String}

/-- A queue touches itself and every queue it reaches. -/
def Touches (w : Wiring R) (origin q : String) : Prop := q = origin ∨ w.Reaches origin q

theorem Touches.refl (origin : String) : w.Touches origin origin := .inl rfl

/-- A target of a queue touched is reached. -/
theorem Touches.reaches (h : w.Touches origin p) (hp : w.Produces p q) : w.Reaches origin q := by
  rcases h with rfl | h
  · exact hp.reaches
  · exact h.tail hp

theorem Touches.tail (h : w.Touches origin p) (hp : w.Produces p q) : w.Touches origin q :=
  .inr (h.reaches hp)

theorem Touches.trans (h : w.Touches origin p) (hq : w.Touches p q) : w.Touches origin q := by
  rcases hq with rfl | hq
  · exact h
  · rcases h with rfl | h
    · exact .inr hq
    · exact .inr (h.trans hq)

/-- No production cycle is reachable from an origin. -/
def AcyclicFrom (w : Wiring R) (origin : String) : Prop := ∀ q, w.Touches origin q → ¬ w.Reaches q q

theorem Acyclic.acyclicFrom (hw : w.Acyclic) (origin : String) : w.AcyclicFrom origin :=
  fun q _ ↦ hw q

theorem acyclic_iff_forall_acyclicFrom : w.Acyclic ↔ ∀ origin, w.AcyclicFrom origin :=
  ⟨Acyclic.acyclicFrom, fun h q ↦ h q q (.refl q)⟩

theorem acyclicFrom_of_not_mem (ho : origin ∉ w) : w.AcyclicFrom origin := by
  rintro q (rfl | hq) hcycle
  · exact ho hcycle.mem
  · exact ho hq.mem

/-- A queue reached has a producer that is touched. -/
theorem Reaches.exists_producer (h : w.Reaches origin q) :
    ∃ p, w.Touches origin p ∧ w.Produces p q := by
  cases h with
  | single h => exact ⟨origin, .refl origin, h⟩
  | @tail p _ h hp => exact ⟨p, .inr h, hp⟩

open Classical in
/-- The producers of a queue in the part that an origin touches. -/
noncomputable def feeders (w : Wiring R) (origin q : String) : Finset String :=
  w.managed.filter fun p ↦ w.Touches origin p ∧ w.Produces p q

theorem mem_feeders : p ∈ w.feeders origin q ↔ w.Touches origin p ∧ w.Produces p q := by
  classical
  rw [feeders, Finset.mem_filter, mem_managed, and_iff_right_iff_imp]
  exact fun h ↦ h.2.mem

/-- Without a cycle to be reached, no edge leads back to the origin. -/
theorem AcyclicFrom.feeders_self (hw : w.AcyclicFrom origin) : w.feeders origin origin = ∅ := by
  refine Finset.eq_empty_of_forall_notMem fun p hp ↦ ?_
  obtain ⟨htouch, hprod⟩ := mem_feeders.mp hp
  exact hw origin (.refl origin) (htouch.reaches hprod)

/-! ### Counting the edges out of one queue -/

theorem getD_foldl_countEdge {names : List String} {degrees : Table Nat} (h : names.Nodup) :
    (names.foldl countEdge degrees).getD q 0 =
      degrees.getD q 0 + if q ∈ names then 1 else 0 := by
  induction names generalizing degrees with
  | nil => simp
  | cons a names ih =>
    have hnames := List.nodup_cons.mp h
    rw [List.foldl_cons, ih hnames.2, Table.getD_eq, Table.getD_eq, countEdge, Table.get?_alter]
    by_cases hq : q = a
    · subst hq
      simp [hnames.1]
    · simp [hq]

/-! ### The invariant of the count -/

/-- The invariant of the count, with the queues expanded so far and those in the worklist. -/
structure Counting (w : Wiring R) (origin : String) (degrees : Table Nat)
    (expanded pending : List String) : Prop where
  /-- Every queue is expanded once. -/
  nodup : (expanded ++ pending).Nodup
  /-- The managed queues met are those expanded and those in the worklist. -/
  mem_iff : ∀ p, p ∈ expanded ++ pending ↔ p ∈ degrees ∧ p ∈ w
  /-- The origin has been met. -/
  origin_mem : origin ∈ degrees
  /-- Every queue met is touched. -/
  touched : ∀ q ∈ degrees, w.Touches origin q
  /-- The targets of an expanded queue have been met. -/
  closed : ∀ p ∈ expanded, ∀ t, w.Produces p t → t ∈ degrees
  /-- The edges counted into a queue are those from the queues expanded. -/
  count : ∀ q, degrees.getD q 0 = expanded.countP (w.Produces · q)

theorem Counting.start (ho : origin ∈ w) :
    w.Counting origin (.singleton origin 0) [] [origin] where
  nodup := List.nodup_singleton origin
  mem_iff p := by
    rw [Table.mem_iff_get?, Table.get?_singleton, List.nil_append, List.mem_singleton]
    by_cases h : p = origin
    · simp [h, ho]
    · simp [h]
  origin_mem := Table.mem_iff_get?.mpr ⟨0, by rw [Table.get?_singleton, if_pos rfl]⟩
  touched q hq := by
    rw [Table.mem_iff_get?, Table.get?_singleton] at hq
    by_cases h : q = origin
    · exact .inl h
    · simp [h] at hq
  closed p hp := absurd hp List.not_mem_nil
  count q := by
    rw [Table.getD_eq, Table.get?_singleton]
    by_cases h : q = origin <;> simp [h]

/-- Expanding the next queue of the worklist keeps the invariant. -/
theorem Counting.expand {degrees : Table Nat} {expanded pending : List String} {queue : String}
    (h : w.Counting origin degrees expanded (queue :: pending)) :
    w.Counting origin ((w.targets queue).foldl countEdge degrees) (queue :: expanded)
      (pending ++ ((w.targets queue).filter fun t ↦ t ∉ degrees).filter (· ∈ w)) := by
  have hqueue : queue ∈ degrees ∧ queue ∈ w :=
    (h.mem_iff queue).mp (List.mem_append_right _ List.mem_cons_self)
  have hnew : ∀ t, t ∈ ((w.targets queue).filter fun t ↦ t ∉ degrees).filter (· ∈ w) ↔
      (w.Produces queue t ∧ t ∉ degrees) ∧ t ∈ w := by
    intro t
    rw [List.mem_filter, List.mem_filter, decide_eq_true_eq, decide_eq_true_eq]
    rfl
  have hperm : (queue :: expanded ++ pending).Perm (expanded ++ queue :: pending) :=
    List.perm_middle.symm
  constructor
  · rw [← List.append_assoc]
    refine List.Nodup.append (hperm.nodup_iff.mpr h.nodup) ?_ fun t ht ht' ↦ ?_
    · exact ((w.nodup_targets queue).filter _).filter _
    · exact ((hnew t).mp ht').1.2 ((h.mem_iff t).mp (hperm.mem_iff.mp ht)).1
  · intro p
    rw [← List.append_assoc, List.mem_append, hperm.mem_iff, h.mem_iff, hnew,
      mem_foldl_countEdge]
    have : p ∈ w.targets queue ↔ w.Produces queue p := Iff.rfl
    tauto
  · exact mem_foldl_countEdge.mpr (.inr h.origin_mem)
  · intro q hq
    rcases mem_foldl_countEdge.mp hq with hq | hq
    · exact (h.touched queue hqueue.1).tail hq
    · exact h.touched q hq
  · intro p hp t ht
    refine mem_foldl_countEdge.mpr ?_
    rcases List.mem_cons.mp hp with rfl | hp
    · exact .inl ht
    · exact .inr (h.closed p hp t ht)
  · intro q
    rw [getD_foldl_countEdge (w.nodup_targets queue), h.count, List.countP_cons]
    simp only [decide_eq_true_eq]
    rfl

/-- When the worklist is used up, every managed queue met has been expanded. -/
theorem Counting.run {degrees : Table Nat} {expanded pending : List String}
    (h : w.Counting origin degrees expanded pending) :
    ∃ expanded', w.Counting origin (w.countInflows degrees pending) expanded' [] := by
  fun_induction countInflows w degrees pending generalizing expanded with
  | case1 degrees => exact ⟨expanded, h⟩
  | case2 degrees queue pending targets fresh =>
    rename_i ih
    exact ih h.expand

/-! ### The counts -/

/-- **The queues whose edges are counted** are the origin and what it reaches. -/
theorem mem_inDegrees (ho : origin ∈ w) : q ∈ w.inDegrees origin ↔ w.Touches origin q := by
  obtain ⟨expanded, h⟩ := (Counting.start ho).run
  refine ⟨h.touched q, ?_⟩
  have hclosed : ∀ p ∈ w.inDegrees origin, ∀ t, w.Produces p t → t ∈ w.inDegrees origin :=
    fun p hp t ht ↦ h.closed p (by simpa using (h.mem_iff p).mpr ⟨hp, ht.mem⟩) t ht
  rintro (rfl | hq)
  · exact h.origin_mem
  · induction hq with
    | single hq => exact hclosed origin h.origin_mem _ hq
    | tail _ hq ih => exact hclosed _ ih _ hq

/-- **The edges counted into a queue** are those from its producers in the part touched. -/
theorem getD_inDegrees (ho : origin ∈ w) :
    (w.inDegrees origin).getD q 0 = (w.feeders origin q).card := by
  obtain ⟨expanded, h⟩ := (Counting.start ho).run
  have hfilter : (expanded.filter fun p ↦ w.Produces p q).toFinset = w.feeders origin q := by
    ext p
    have hp := h.mem_iff p
    rw [List.append_nil] at hp
    rw [List.mem_toFinset, List.mem_filter, decide_eq_true_eq, mem_feeders, hp]
    refine and_congr_left fun hprod ↦ ?_
    rw [and_iff_left hprod.mem]
    exact mem_inDegrees ho
  have hnodup : expanded.Nodup := by simpa using h.nodup
  rw [← hfilter, List.toFinset_card_of_nodup (hnodup.filter _), ← List.countP_eq_length_filter]
  exact h.count q

end QueueScaler.Wiring
