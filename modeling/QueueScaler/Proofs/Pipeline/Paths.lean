import Mathlib.Algebra.BigOperators.Finprod
import QueueScaler.Proofs.Pipeline.Balance
/-!
# Rates as sums over production paths

Demand of an origin comes to a queue along every production path between them, multiplied by the
rates of the edges on it. An acyclic wiring has finitely many paths, and the sum over them can be
taken apart at the first edge or at the last one. The latter makes it a flow, so it equals the total
rate.

## Main definitions

* `Wiring.IsPath`, `Wiring.pathWeight`: a production path, and the product of its edge rates.
* `Wiring.pathSum`: the sum over all paths of at least one edge between two queues.

## Main results

* `Wiring.finite_isPath`: in an acyclic wiring there are finitely many paths.
* `Wiring.pathSum_eq_sum_first`, `Wiring.pathSum_eq_sum_last`: the sum by the first and the last
  edge of the paths.
* `Wiring.getD_totalRates`: the total rate of a queue as a sum over paths from the origins.
* `Pipeline.propagate_eq_pathSum`: the rates that one origin causes, as sums over its paths.
-/

namespace QueueScaler

namespace Wiring

section Paths

variable {R : Type} {w : Wiring R} {p q t : String} {stops : List String}

/-! ### Production paths -/

/-- Whether the given stops are the queues after `p` on a production path from `p` to `q`. -/
def IsPath (w : Wiring R) (q : String) : String → List String → Prop
  | p, [] => p = q
  | p, t :: stops => w.Produces p t ∧ w.IsPath q t stops

/-- The production paths of at least one edge from `p` to `q`, by their stops after `p`. -/
def paths (w : Wiring R) (p q : String) : Set (List String) :=
  {stops | stops ≠ [] ∧ w.IsPath q p stops}

theorem IsPath.reaches (h : w.IsPath q p stops) (hne : stops ≠ []) : w.Reaches p q := by
  induction stops generalizing p with
  | nil => exact absurd rfl hne
  | cons t stops ih =>
    rcases stops.eq_nil_or_concat with hnil | ⟨_, _, hcons⟩
    · subst hnil
      exact h.2 ▸ h.1.reaches
    · exact (ih h.2 (by simp [hcons])).head h.1

/-- The paths of at least one edge, by their first edge. -/
theorem paths_eq_biUnion (w : Wiring R) (p q : String) :
    w.paths p q = ⋃ t ∈ ((w.targets p).toFinset : Set String),
      (t :: ·) '' {stops | w.IsPath q t stops} := by
  ext stops
  simp only [paths, Set.mem_ofPred_eq, Set.mem_iUnion, exists_prop, List.coe_toFinset,
    Set.mem_image]
  constructor
  · rintro ⟨hne, h⟩
    cases stops with
    | nil => exact absurd rfl hne
    | cons t stops => exact ⟨t, h.1, stops, h.2, rfl⟩
  · rintro ⟨t, ht, stops, h, rfl⟩
    exact ⟨List.cons_ne_nil _ _, ht, h⟩

/-- A path has no edge or at least one. -/
theorem setOf_isPath (w : Wiring R) (p q : String) :
    {stops | w.IsPath q p stops} = (if p = q then {[]} else ∅) ∪ w.paths p q := by
  ext stops
  cases stops with
  | nil => by_cases h : p = q <;> simp [IsPath, paths, h]
  | cons t stops => by_cases h : p = q <;> simp [paths, h]

/-- **An acyclic wiring has finitely many production paths.** -/
theorem finite_isPath (hw : w.Acyclic) (p q : String) : {stops | w.IsPath q p stops}.Finite := by
  induction p using hw.wellFounded_targets.induction with
  | _ p ih =>
    rw [setOf_isPath, paths_eq_biUnion]
    refine Set.Finite.union ?_ (Set.Finite.biUnion (Finset.finite_toSet _) fun t ht ↦ ?_)
    · split
      · exact Set.finite_singleton _
      · exact Set.finite_empty
    · exact (ih t (List.mem_toFinset.mp ht)).image _

theorem finite_paths (hw : w.Acyclic) (p q : String) : (w.paths p q).Finite :=
  (finite_isPath hw p q).subset fun _ h ↦ h.2

/-- A queue is reached exactly if there is a path to it. -/
theorem nonempty_paths_iff : (w.paths p q).Nonempty ↔ w.Reaches p q := by
  constructor
  · rintro ⟨stops, hne, h⟩
    exact h.reaches hne
  · intro h
    induction h using Relation.TransGen.head_induction_on with
    | single h => exact ⟨[q], List.cons_ne_nil _ _, h, rfl⟩
    | head h _ ih =>
      obtain ⟨stops, -, hstops⟩ := ih
      exact ⟨_ :: stops, List.cons_ne_nil _ _, h, hstops⟩

end Paths

/-! ### Sums over paths -/

variable {K : Type} [CommSemiring K] {w : Wiring K} {o p q t : String}

/-- The product of the edge rates along a path. -/
def pathWeight (w : Wiring K) : String → List String → K
  | _, [] => 1
  | p, t :: stops => w.emission p t * w.pathWeight t stops

/-- The sum, over all production paths of at least one edge, of the product of the edge rates. -/
noncomputable def pathSum (w : Wiring K) (p q : String) : K :=
  ∑ᶠ stops ∈ w.paths p q, w.pathWeight p stops

theorem pathSum_of_not_reaches (h : ¬ w.Reaches p q) : w.pathSum p q = 0 := by
  have hempty : w.paths p q = ∅ :=
    Set.eq_empty_of_forall_notMem fun _ hs ↦ h (hs.2.reaches hs.1)
  rw [pathSum, hempty, finsum_mem_empty]

/-- The sum over all paths, the one without edges included. -/
theorem finsum_isPath (hw : w.Acyclic) (p q : String) :
    ∑ᶠ stops ∈ {stops | w.IsPath q p stops}, w.pathWeight p stops =
      (if p = q then 1 else 0) + w.pathSum p q := by
  have hdisj : Disjoint (if p = q then {[]} else ∅ : Set (List String)) (w.paths p q) := by
    split
    · exact Set.disjoint_singleton_left.mpr fun h ↦ h.1 rfl
    · exact Set.empty_disjoint _
  have hfinite : (if p = q then {[]} else ∅ : Set (List String)).Finite := by
    split
    · exact Set.finite_singleton _
    · exact Set.finite_empty
  rw [setOf_isPath, finsum_mem_union hdisj hfinite (finite_paths hw p q), pathSum]
  refine congrArg (· + _) ?_
  split
  · rw [finsum_mem_singleton, pathWeight]
  · exact finsum_mem_empty

/-- **The sum over paths, by their first edge.** -/
theorem pathSum_eq_sum_first (hw : w.Acyclic) (p q : String) :
    w.pathSum p q =
      ∑ t ∈ (w.targets p).toFinset,
        w.emission p t * ((if t = q then 1 else 0) + w.pathSum t q) := by
  have hdisj : ((w.targets p).toFinset : Set String).PairwiseDisjoint
      fun t ↦ (t :: ·) '' {stops | w.IsPath q t stops} := by
    intro t _ t' _ hne
    refine Set.disjoint_left.mpr ?_
    rintro _ ⟨stops, _, rfl⟩ ⟨stops', _, h⟩
    exact hne (List.cons.inj h).1.symm
  rw [pathSum, paths_eq_biUnion, finsum_mem_biUnion hdisj (Finset.finite_toSet _)
    fun t _ ↦ (finite_isPath hw t q).image _, finsum_mem_coe_finset]
  refine Finset.sum_congr rfl fun t _ ↦ ?_
  rw [finsum_mem_image (List.cons_injective.injOn), ← finsum_isPath hw,
    mul_finsum_mem' _ _ (finite_isPath hw t q)]
  rfl

theorem sum_emission_ite (w : Wiring K) (p q : String) :
    ∑ t ∈ (w.targets p).toFinset, w.emission p t * (if t = q then 1 else 0) = w.emission p q := by
  simp only [mul_ite, mul_one, mul_zero, Finset.sum_ite_eq']
  split
  · rfl
  · rename_i h
    exact (emission_of_not_produces fun hq ↦ h (List.mem_toFinset.mpr hq)).symm

theorem sum_ite_emission (w : Wiring K) (o q : String) :
    ∑ p ∈ w.managed, (if o = p then 1 else 0) * w.emission p q = w.emission o q := by
  simp only [ite_mul, one_mul, zero_mul, Finset.sum_ite_eq]
  split
  · rfl
  · rename_i h
    exact (emission_of_not_produces fun hq ↦ h (mem_managed.mpr hq.mem)).symm

/-- **The sum over paths, by their last edge.** -/
theorem pathSum_eq_sum_last (hw : w.Acyclic) (o q : String) :
    w.pathSum o q =
      ∑ p ∈ w.managed, ((if o = p then 1 else 0) + w.pathSum o p) * w.emission p q := by
  induction o using hw.wellFounded_targets.induction with
  | _ o ih =>
    have hsecond : ∑ t ∈ (w.targets o).toFinset, w.emission o t * w.pathSum t q =
        ∑ p ∈ w.managed, w.pathSum o p * w.emission p q := by
      calc ∑ t ∈ (w.targets o).toFinset, w.emission o t * w.pathSum t q
          = ∑ t ∈ (w.targets o).toFinset, ∑ p ∈ w.managed,
              w.emission o t * ((if t = p then 1 else 0) + w.pathSum t p) * w.emission p q := by
            refine Finset.sum_congr rfl fun t ht ↦ ?_
            rw [ih t (List.mem_toFinset.mp ht), Finset.mul_sum]
            exact Finset.sum_congr rfl fun p _ ↦ (mul_assoc ..).symm
        _ = ∑ p ∈ w.managed, w.pathSum o p * w.emission p q := by
            rw [Finset.sum_comm]
            refine Finset.sum_congr rfl fun p _ ↦ ?_
            rw [pathSum_eq_sum_first hw o p, Finset.sum_mul]
    rw [pathSum_eq_sum_first hw]
    simp only [mul_add, add_mul, Finset.sum_add_distrib, sum_emission_ite, sum_ite_emission,
      hsecond]

/-! ### Total rates -/

/-- Demands spread along all paths are a flow. -/
theorem isFlow_pathSum (hw : w.Acyclic) {own : String → K} {origins : Finset String}
    (hown : ∀ q ∉ origins, own q = 0) :
    w.IsFlow own fun q ↦ own q + ∑ o ∈ origins, own o * w.pathSum o q := by
  intro q
  have hpoint (p : String) : ∑ o ∈ origins, own o * (if o = p then 1 else 0) = own p := by
    simp only [mul_ite, mul_one, mul_zero, Finset.sum_ite_eq']
    split
    · rfl
    · rename_i h
      exact (hown p h).symm
  refine congrArg _ ?_
  calc ∑ o ∈ origins, own o * w.pathSum o q
      = ∑ o ∈ origins, ∑ p ∈ w.managed,
          w.emission p q * (own o * ((if o = p then 1 else 0) + w.pathSum o p)) := by
        refine Finset.sum_congr rfl fun o _ ↦ ?_
        rw [pathSum_eq_sum_last hw, Finset.mul_sum]
        exact Finset.sum_congr rfl fun p _ ↦ by ring
    _ = ∑ p ∈ w.managed, w.emission p q * (own p + ∑ o ∈ origins, own o * w.pathSum o p) := by
        rw [Finset.sum_comm]
        refine Finset.sum_congr rfl fun p _ ↦ ?_
        rw [← Finset.mul_sum]
        simp only [mul_add, Finset.sum_add_distrib, hpoint]

/-- **The total rate of a queue** is its own demand and, over all origins, their demand times the
sum over the paths to the queue. -/
theorem getD_totalRates (hw : w.Acyclic) (origins : Table K) (q : String) :
    (totalRates origins (w.followUpRates origins)).getD q 0 =
      origins.getD q 0 + ∑ o ∈ origins.keys.toFinset, origins.getD o 0 * w.pathSum o q := by
  have hown : ∀ q ∉ origins.keys.toFinset, origins.getD q 0 = 0 := fun q hq ↦ by
    rw [List.mem_toFinset, Table.mem_keys_iff, Table.not_mem_iff_get?] at hq
    rw [Table.getD_eq, hq, Option.getD_none]
  exact congrFun ((isFlow_totalRates hw origins).unique hw (isFlow_pathSum hw hown)) q

/-! ### The rates of one origin -/

/-- **The rate that an origin causes at a queue** is its own times the sum over the paths between
them. -/
theorem getD_propagate (hw : w.Acyclic) {x : K} {rates : Table K}
    (h : w.propagate o x = .ok rates) (q : String) : rates.getD q 0 = x * w.pathSum o q := by
  have hown : ∀ q ∉ ({o} : Finset String), (if q = o then x else 0) = 0 := fun q hq ↦
    if_neg fun heq ↦ hq (Finset.mem_singleton.mpr heq)
  have hsame := congrFun ((isFlow_propagate hw h).unique hw (isFlow_pathSum hw hown)) q
  -- At the origin its own rate cannot be cancelled in a semiring, but nothing comes back to it.
  by_cases hq : q = o
  · subst hq
    rw [Table.getD_eq, Table.not_mem_iff_get?.mp (mt (mem_propagate hw h).mp (hw q)),
      pathSum_of_not_reaches (hw q), mul_zero, Option.getD_none]
  · simpa only [if_neg hq, zero_add, Finset.sum_singleton, if_true] using hsame

end Wiring

/-- **Propagation computes path sums.** In exact arithmetic, whatever queue is drained at whatever
rate, the walk succeeds. A queue gets a rate exactly if a production path of at least one edge leads
to it, and the rate is that of the origin times the sum, over these finitely many paths, of the
product of the edge rates. The edges are those of every managed queue, consumed or not, so paths go
on through a queue that nobody drains, and end at one that is not managed. -/
theorem Pipeline.propagate_eq_pathSum (p : Pipeline ℚ) (origin : String) (x : ℚ) :
    (∃ rates, p.wiring.propagate origin x = .ok rates ∧
      ∀ q, (p.wiring.paths origin q).Finite ∧
        (q ∈ rates ↔ (p.wiring.paths origin q).Nonempty) ∧
        rates.getD q 0 = x * ∑ᶠ stops ∈ p.wiring.paths origin q,
          p.wiring.pathWeight origin stops) ∧
    ∀ q t rate, p.wiring.Produces q t ∧ p.wiring.emission q t = rate ↔
      ∃ b, p.wiring.get? q = some b ∧ b.produces.get? t = some rate := by
  obtain ⟨rates, hrates⟩ := Wiring.exists_propagate p.acyclic origin x
  refine ⟨⟨rates, hrates, fun q ↦ ⟨Wiring.finite_paths p.acyclic origin q, ?_, ?_⟩⟩,
    fun q t rate ↦ ?_⟩
  · rw [Wiring.mem_propagate p.acyclic hrates, Wiring.nonempty_paths_iff]
  · exact Wiring.getD_propagate p.acyclic hrates q
  · rw [Wiring.produces_iff_get?, Wiring.emission, Wiring.edges, Table.getD_eq]
    cases p.wiring.get? q with
    | none => simp
    | some b => cases h : b.produces.get? t <;> simp [h]

end QueueScaler
