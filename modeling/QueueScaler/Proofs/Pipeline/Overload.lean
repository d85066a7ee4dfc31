import QueueScaler.Proofs.Pipeline.Plan
import QueueScaler.Proofs.Pipeline.Validity
/-!
# Which rates of an overloaded pipeline are no number

In an arithmetic that saturates, rates may grow past all bounds, and an infinite inflow times a
production rate of zero is no number. Nothing else makes a rate indeterminate: sums of rates that
are not negative are none only if a term is. So the rate of a queue is no number exactly if, on the
way from some origin to the queue, an edge of rate zero leaves a queue with an unbounded inflow.

## Main definitions

* `Rate.Saturating`: what is assumed of the arithmetic.
* `Wiring.inflow`: the inflow of a queue when one origin is drained.
* `Wiring.Indeterminate`, `Wiring.Obscures`: an edge whose share is no number, and an origin that
  reaches a queue through one.

## Main results

* `Wiring.isNaN_gathered_iff`: one queue, given the inflows of its producers.
* `Wiring.isNaN_propagate_iff`: the rates that one origin causes.
* `Wiring.isNaN_plan_followUp_iff`, `Wiring.isNaN_plan_total_iff`: the rates of a plan.
-/

namespace QueueScaler

variable {R : Type} [Rate R]

/-- An arithmetic in which sums and products of rates that are not negative are not negative, and in
which only a product of zero with something unbounded makes no number out of numbers. -/
class Rate.Saturating (R : Type) [Rate R] : Prop where
  /-- Zero is not negative. -/
  zero_not_neg : ¬ (0 : R) < 0
  /-- Zero is a number. -/
  isNaN_zero : Rate.isNaN (0 : R) = false
  /-- A sum of two rates. -/
  add {x y : R} (hx : ¬ x < 0) (hy : ¬ y < 0) :
    ¬ x + y < 0 ∧ (Rate.isNaN (x + y) = true ↔ Rate.isNaN x = true ∨ Rate.isNaN y = true)
  /-- A share of a rate. -/
  mul {r x : R} (hr : EmissionFit r) (hx : ¬ x < 0) :
    ¬ r * x < 0 ∧
      (Rate.isNaN (r * x) = true ↔ Rate.isNaN x = true ∨ ¬ 0 < r ∧ Rate.isFinite x = false)

open Rate (Saturating)

/-- Adding one vector of rates to another: nothing turns negative, and no number becomes of a queue
only if it was none before. -/
theorem isNaN_addRates_iff [Saturating R] {into other : Table R} {q : String}
    (hinto : ¬ into.getD q 0 < 0) (hother : ¬ other.getD q 0 < 0) :
    ¬ (addRates into other).getD q 0 < 0 ∧
      (Rate.isNaN ((addRates into other).getD q 0) = true ↔
        Rate.isNaN (into.getD q 0) = true ∨ Rate.isNaN (other.getD q 0) = true) := by
  have hget := get?_addRates into other q
  rw [Table.getD_eq] at hother
  rw [Table.getD_eq, Table.getD_eq (t := other), hget]
  cases hq : other.get? q with
  | none =>
    refine ⟨by rwa [← Table.getD_eq], ?_⟩
    simp [Table.getD_eq, Saturating.isNaN_zero]
  | some y =>
    rw [hq] at hother
    exact Saturating.add hinto hother

namespace Wiring

variable {w : Wiring R} {origin p q t : String} {x : R}

/-! ### The rates that one origin causes -/

/-- The inflow of a queue when an origin is drained at some rate: this rate at the origin, and
elsewhere what it causes. -/
def inflow (origin : String) (x : R) (rates : Table R) (p : String) : R :=
  if p = origin then x else rates.getD p 0

/-- The share that an edge of rate zero carries of an unbounded inflow is indeterminate. An inflow
that is no number itself counts as unbounded. -/
def Indeterminate (w : Wiring R) (inflow : String → R) (p t : String) : Prop :=
  ∃ r, (w.edges p).get? t = some r ∧ ¬ 0 < r ∧ Rate.isFinite (inflow p) = false

/-- Draining an origin at some rate obscures a queue if an indeterminate share arises on the way
there. -/
def Obscures (w : Wiring R) (origin : String) (x : R) (q : String) : Prop :=
  ∃ rates, w.propagate origin x = .ok rates ∧
    ∃ p t, w.Touches origin p ∧ w.Indeterminate (inflow origin x rates) p t ∧ w.Touches t q

theorem Indeterminate.produces {inflow : String → R} (h : w.Indeterminate inflow p t) :
    w.Produces p t :=
  let ⟨r, hr, _⟩ := h
  produces_iff_get?.mpr ⟨r, hr⟩

/-- What obscures a queue reaches it. -/
theorem Obscures.reaches (h : w.Obscures origin x q) : w.Reaches origin q := by
  obtain ⟨_, -, p, t, hp, hpt, rfl | hq⟩ := h
  · exact hp.reaches hpt.produces
  · exact (hp.reaches hpt.produces).trans hq

/-- What obscures a queue obscures one of its producers or carries an indeterminate share there. -/
theorem obscures_iff {rates : Table R} (h : w.propagate origin x = .ok rates) :
    w.Obscures origin x q ↔ ∃ p, w.Touches origin p ∧
      (w.Produces p q ∧ w.Obscures origin x p ∨
        w.Indeterminate (inflow origin x rates) p q) := by
  simp only [Obscures, h, Except.ok.injEq, exists_eq_left']
  constructor
  · rintro ⟨p, t, hp, hpt, rfl | hq⟩
    · exact ⟨p, hp, .inr hpt⟩
    · obtain ⟨s, hs, hsq⟩ := hq.exists_producer
      have htouch : w.Touches origin s := by
        rcases hs with rfl | hs
        · exact hp.tail hpt.produces
        · exact .inr ((hp.reaches hpt.produces).trans hs)
      exact ⟨s, htouch, .inl ⟨hsq, p, t, hp, hpt, hs⟩⟩
  · rintro ⟨p, hp, ⟨hpq, s, t, hs, hst, ht⟩ | hpq⟩
    · exact ⟨s, t, hs, hst, ht.tail hpq⟩
    · exact ⟨p, q, hp, hpq, .refl q⟩

variable [Saturating R]

/-- **What a queue receives is no number** exactly if a producer has an inflow that is none or an
edge from a producer carries an indeterminate share. -/
theorem isNaN_gathered_iff (hfit : w.RatesFit) {inflow : String → R} {order : List String}
    (hpos : ∀ p ∈ order, w.Produces p q → ¬ inflow p < 0) :
    ¬ (w.gathered inflow q order).getD 0 < 0 ∧
      (Rate.isNaN ((w.gathered inflow q order).getD 0) = true ↔
        ∃ p ∈ order, w.Produces p q ∧ Rate.isNaN (inflow p) = true ∨
          w.Indeterminate inflow p q) := by
  induction order with
  | nil => simp [gathered, Saturating.zero_not_neg, Saturating.isNaN_zero]
  | cons p order ih =>
    obtain ⟨hp, hpos⟩ := List.forall_mem_cons.mp hpos
    obtain ⟨hsum, hsumNaN⟩ := ih hpos
    rw [List.exists_mem_cons_iff, ← hsumNaN, gathered, received, Indeterminate,
      produces_iff_get?]
    cases hr : (w.edges p).get? q with
    | none => simpa using hsum
    | some r =>
      obtain ⟨hshare, hshareNaN⟩ :=
        Saturating.mul (hfit.edge hr) (hp (produces_iff_get?.mpr ⟨r, hr⟩))
      obtain ⟨htotal, htotalNaN⟩ := Saturating.add hsum hshare
      refine ⟨htotal, htotalNaN.trans ?_⟩
      rw [hshareNaN]
      simp [or_comm]

/-- The inflows of a walk in topological order: none is negative, and those that are no number
belong to the queues that the origin obscures. -/
theorem Walked.isNaN_inflow_iff {order : List String} {rates : Table R} (hw : w.Acyclic)
    (hfit : w.RatesFit) (hx : ¬ x < 0) (hnum : Rate.isNaN x = false)
    (h : w.propagate origin x = .ok rates) (hwalk : w.Walked origin x order rates) (q : String) :
    ¬ inflow origin x rates q < 0 ∧
      (Rate.isNaN (inflow origin x rates q) = true ↔ w.Obscures origin x q) := by
  -- Against the edges: the inflows of the producers come before that of the queue.
  induction q using hw.wellFounded_produces.induction with
  | _ q ih =>
    by_cases hq : q = origin
    · subst hq
      rw [inflow, if_pos rfl, hnum]
      exact ⟨hx, iff_of_false Bool.false_ne_true fun h ↦ hw q h.reaches⟩
    · have hreceived := isNaN_gathered_iff hfit fun p (_ : p ∈ order) hpq ↦ (ih p hpq).1
      have hrate : inflow origin x rates q =
          (w.gathered (inflow origin x rates) q order).getD 0 := by
        rw [inflow, if_neg hq, Table.getD_eq, hwalk.rates]
        rfl
      rw [hrate, obscures_iff h]
      refine ⟨hreceived.1, hreceived.2.trans (exists_congr fun p ↦ ?_)⟩
      rw [hwalk.mem_iff]
      refine and_congr_right fun _ ↦ or_congr_left (and_congr_right fun hpq ↦ (ih p hpq).2)

/-- **The rates that one origin causes** are not negative, and those that are no number belong to
the queues it obscures. -/
theorem isNaN_propagate_iff (hw : w.Acyclic) (hfit : w.RatesFit) (hx : ¬ x < 0)
    (hnum : Rate.isNaN x = false) {rates : Table R} (h : w.propagate origin x = .ok rates)
    (q : String) :
    ¬ rates.getD q 0 < 0 ∧ (Rate.isNaN (rates.getD q 0) = true ↔ w.Obscures origin x q) := by
  by_cases hq : w.Reaches origin q
  · obtain ⟨order, rates', h', hwalk⟩ := exists_walked hw hq.mem x
    obtain rfl := Except.ok.inj (h.symm.trans h')
    have hinflow := hwalk.isNaN_inflow_iff hw hfit hx hnum h q
    have hne : q ≠ origin := fun he ↦ hw q (he ▸ hq)
    rwa [inflow, if_neg hne] at hinflow
  · have hzero : rates.getD q 0 = 0 := by
      rw [Table.getD_eq, Table.not_mem_iff_get?.mp (mt (mem_propagate hw h).mp hq)]
      rfl
    rw [hzero, Saturating.isNaN_zero]
    exact ⟨Saturating.zero_not_neg, iff_of_false Bool.false_ne_true fun h ↦ hq h.reaches⟩

/-! ### The rates of a plan -/

variable {origins : Table R}

/-- **The follow-up rates** are not negative, and those that are no number belong to the queues that
some origin obscures. -/
theorem isNaN_followUpRates_iff (hw : w.Acyclic) (hfit : w.RatesFit)
    (horigins : ∀ o x, origins.get? o = some x → ¬ x < 0 ∧ Rate.isNaN x = false) (q : String) :
    ¬ (w.followUpRates origins).getD q 0 < 0 ∧
      (Rate.isNaN ((w.followUpRates origins).getD q 0) = true ↔
        ∃ o x, origins.get? o = some x ∧ w.Obscures o x q) := by
  have hfold (l : List (String × R)) (hl : ∀ e ∈ l, ¬ e.2 < 0 ∧ Rate.isNaN e.2 = false)
      (sum : Table R) (hsum : ¬ sum.getD q 0 < 0) :
      ¬ (l.foldl (fun sum e ↦ w.addFollowUp sum e.1 e.2) sum).getD q 0 < 0 ∧
        (Rate.isNaN ((l.foldl (fun sum e ↦ w.addFollowUp sum e.1 e.2) sum).getD q 0) = true ↔
          Rate.isNaN (sum.getD q 0) = true ∨ ∃ e ∈ l, w.Obscures e.1 e.2 q) := by
    induction l generalizing sum with
    | nil => simpa using hsum
    | cons e l ih =>
      obtain ⟨⟨he, hnum⟩, hl⟩ := List.forall_mem_cons.mp hl
      obtain ⟨rates, hrates⟩ := exists_propagate hw e.1 e.2
      obtain ⟨hcaused, hcausedNaN⟩ := isNaN_propagate_iff hw hfit he hnum hrates q
      obtain ⟨hnext, hnextNaN⟩ := isNaN_addRates_iff hsum hcaused
      have hstep : w.addFollowUp sum e.1 e.2 = addRates sum rates := by
        rw [addFollowUp, hrates]
      obtain ⟨hend, hendNaN⟩ := ih hl (addRates sum rates) hnext
      rw [List.foldl_cons, hstep, List.exists_mem_cons_iff, ← or_assoc, ← hcausedNaN, ← hnextNaN]
      exact ⟨hend, hendNaN⟩
  have hentries : (∃ e ∈ origins.entries, w.Obscures e.1 e.2 q) ↔
      ∃ o x, origins.get? o = some x ∧ w.Obscures o x q := by
    simp only [Prod.exists, Table.mem_entries_iff]
  have hzero : (∅ : Table R).getD q 0 = 0 := rfl
  obtain ⟨hpos, hNaN⟩ := hfold origins.entries
    (fun e he ↦ horigins e.1 e.2 (Table.mem_entries_iff.mp he)) ∅
    (hzero ▸ Saturating.zero_not_neg)
  rw [hentries, hzero, Saturating.isNaN_zero, or_iff_right Bool.false_ne_true] at hNaN
  exact ⟨hpos, hNaN⟩

variable (hw : w.Acyclic) (hfit : w.RatesFit)
  (horigins : ∀ o x, origins.get? o = some x → ¬ x < 0 ∧ Rate.isNaN x = false) (followUp : Bool)
  (q : String)

include hw hfit horigins

/-- The same with follow-up or without. -/
theorem isNaN_plan_followUp_iff :
    ¬ (w.plan followUp origins).followUp.getD q 0 < 0 ∧
      (Rate.isNaN ((w.plan followUp origins).followUp.getD q 0) = true ↔
        followUp = true ∧ ∃ o x, origins.get? o = some x ∧ w.Obscures o x q) := by
  cases followUp with
  | false =>
    have hzero : (w.plan false origins).followUp.getD q 0 = 0 := rfl
    simp [hzero, Saturating.zero_not_neg, Saturating.isNaN_zero]
  | true =>
    rw [eq_self_iff_true, true_and]
    exact isNaN_followUpRates_iff hw hfit horigins q

/-- **The total rates** are not negative either, and the same ones of them are no number. -/
theorem isNaN_plan_total_iff :
    ¬ (w.plan followUp origins).total.getD q 0 < 0 ∧
      (Rate.isNaN ((w.plan followUp origins).total.getD q 0) = true ↔
        followUp = true ∧ ∃ o x, origins.get? o = some x ∧ w.Obscures o x q) := by
  obtain ⟨horigin, hnum⟩ : ¬ origins.getD q 0 < 0 ∧ Rate.isNaN (origins.getD q 0) = false := by
    rw [Table.getD_eq]
    cases hq : origins.get? q with
    | none => exact ⟨Saturating.zero_not_neg, Saturating.isNaN_zero⟩
    | some x => exact horigins q x hq
  obtain ⟨hcaused, hcausedNaN⟩ := isNaN_plan_followUp_iff hw hfit horigins followUp q
  obtain ⟨htotal, htotalNaN⟩ := isNaN_addRates_iff horigin hcaused
  rw [hnum, or_iff_right Bool.false_ne_true, hcausedNaN] at htotalNaN
  exact ⟨htotal, htotalNaN⟩

end Wiring

end QueueScaler
