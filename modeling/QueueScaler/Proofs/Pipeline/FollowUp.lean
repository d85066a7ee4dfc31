import QueueScaler.Pipeline.Plan
import QueueScaler.Proofs.Pipeline.Walk
/-!
# Follow-up rates of several origins

The rates caused by each origin are added up in name order of the origins. So the follow-up rate of
a queue is a sum over the origins that reach it; an origin that does not reach it has no say in it,
not even in the order of the additions.

## Main results

* `get?_addRates`: the sum of two vectors of rates, name by name.
* `Wiring.mem_followUpRates`, `Wiring.mem_plan_total`: the queues with a follow-up rate are those
  that some origin reaches, and those with a total rate are the origins besides.
* `Wiring.get?_followUpRates_filter`: leaving out origins that do not reach a queue changes nothing
  for it, in any arithmetic.
-/

namespace QueueScaler

variable {R : Type}

/-! ### Sums of vectors -/

theorem get?_addRates [Zero R] [Add R] (into other : Table R) (q : String) :
    (addRates into other).get? q = match other.get? q with
      | none => into.get? q
      | some rate => some (into.getD q 0 + rate) := by
  refine Table.view_fold (fun t ↦ t.get? q) (g := fun rate old ↦ some (old.getD 0 + rate))
    (fun t name rate hne ↦ ?_) (fun t rate ↦ ?_) other into
  · rw [Table.get?_alter, if_neg (Ne.symm hne)]
  · rw [Table.get?_alter_self]

theorem mem_addRates [Zero R] [Add R] {into other : Table R} {q : String} :
    q ∈ addRates into other ↔ q ∈ into ∨ q ∈ other := by
  rw [Table.mem_iff_get?, Table.mem_iff_get?, Table.mem_iff_get?, get?_addRates]
  rcases other.get? q with _ | rate <;> simp

namespace Wiring

variable [Zero R] [Add R] [Mul R] {w : Wiring R} {origin q : String} {x : R}

/-! ### One origin -/

/-- An origin that does not reach a queue adds nothing to its rate. -/
theorem get?_addFollowUp_of_not_reaches (hw : w.Acyclic) (h : ¬ w.Reaches origin q)
    (sum : Table R) : (w.addFollowUp sum origin x).get? q = sum.get? q := by
  obtain ⟨rates, hrates⟩ := exists_propagate hw origin x
  have hq : rates.get? q = none := Table.not_mem_iff_get?.mp (mt (mem_propagate hw hrates).mp h)
  rw [addFollowUp, hrates, get?_addRates, hq]

theorem mem_addFollowUp (hw : w.Acyclic) {sum : Table R} :
    q ∈ w.addFollowUp sum origin x ↔ q ∈ sum ∨ w.Reaches origin q := by
  obtain ⟨rates, hrates⟩ := exists_propagate hw origin x
  rw [addFollowUp, hrates, mem_addRates, mem_propagate hw hrates]

/-- What an origin adds to the rate of a queue depends on the sum for that queue alone. -/
theorem get?_addFollowUp_congr {sum sum' : Table R} (h : sum.get? q = sum'.get? q) :
    (w.addFollowUp sum origin x).get? q = (w.addFollowUp sum' origin x).get? q := by
  rw [addFollowUp, addFollowUp]
  split
  · rw [get?_addRates, get?_addRates, Table.getD_eq, Table.getD_eq, h]
  · exact h

/-! ### All origins -/

theorem mem_followUpRates (hw : w.Acyclic) {origins : Table R} :
    q ∈ w.followUpRates origins ↔ ∃ o ∈ origins, w.Reaches o q := by
  have hkeys : (∃ e ∈ origins.entries, w.Reaches e.1 q) ↔ ∃ o ∈ origins, w.Reaches o q := by
    constructor
    · rintro ⟨e, he, hq⟩
      exact ⟨e.1, Table.mem_keys_iff.mp (List.mem_map_of_mem he), hq⟩
    · rintro ⟨o, ho, hq⟩
      obtain ⟨e, he, rfl⟩ := List.mem_map.mp (Table.mem_keys_iff.mpr ho)
      exact ⟨e, he, hq⟩
  have hstep : ∀ (sum : Table R) (e : String × R),
      q ∈ w.addFollowUp sum e.1 e.2 ↔ q ∈ sum ∨ w.Reaches e.1 q := fun _ _ ↦ mem_addFollowUp hw
  rw [followUpRates, Table.fold, Table.mem_foldl hstep, hkeys,
    or_iff_right (Table.not_mem_empty q)]

/-- **Origins that do not reach a queue have no say in its follow-up rate,** in any arithmetic:
leaving them out keeps every term of the sum and their order. -/
theorem get?_followUpRates_filter (hw : w.Acyclic) (origins : Table R)
    (keep : String → R → Bool) (h : ∀ o x, keep o x = false → ¬ w.Reaches o q) :
    (w.followUpRates (origins.filter keep)).get? q = (w.followUpRates origins).get? q := by
  have hfold : ∀ (l : List (String × R)) {sum sum' : Table R}, sum.get? q = sum'.get? q →
      ((l.filter fun e ↦ keep e.1 e.2).foldl
          (fun sum e ↦ w.addFollowUp sum e.1 e.2) sum).get? q =
        (l.foldl (fun sum e ↦ w.addFollowUp sum e.1 e.2) sum').get? q := by
    intro l
    induction l with
    | nil => exact id
    | cons e l ih =>
      intro sum sum' hsum
      rw [List.foldl_cons, List.filter_cons]
      cases hkeep : keep e.1 e.2 with
      | true => exact ih (get?_addFollowUp_congr hsum)
      | false =>
        refine ih ?_
        rw [get?_addFollowUp_of_not_reaches hw (h e.1 e.2 hkeep), hsum]
  exact hfold origins.entries rfl

end Wiring

/-! ### Totals -/

namespace Wiring

variable [Rate R] {w : Wiring R} {followUp : Bool} {origins : Table R} {q : String}

theorem get?_plan_total (w : Wiring R) (followUp : Bool) (origins : Table R) (q : String) :
    (w.plan followUp origins).total.get? q =
      match (if followUp then w.followUpRates origins else ∅).get? q with
      | none => origins.get? q
      | some rate => some (origins.getD q 0 + rate) :=
  get?_addRates ..

/-- The queues with a total rate are the origins and, with follow-up, what an origin reaches. -/
theorem mem_plan_total (hw : w.Acyclic) :
    q ∈ (w.plan followUp origins).total ↔
      q ∈ origins ∨ followUp = true ∧ ∃ o ∈ origins, w.Reaches o q := by
  cases followUp with
  | false =>
    refine mem_addRates.trans ?_
    simp [Table.not_mem_empty]
  | true =>
    refine mem_addRates.trans ?_
    simp [mem_followUpRates hw]

end Wiring

end QueueScaler
