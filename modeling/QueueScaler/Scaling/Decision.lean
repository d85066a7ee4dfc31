import QueueScaler.Instant
/-!
# The decision on one service

Demand that the current replicas do not meet adds replicas, up to a ceiling. A service without any
demand goes down to a single replica, but not while its last scale-up is recent. Everything in
between is left as it is.

## Main definitions

* `Decision`: what is to be done with a service.
* `Decision.target`: the replica count that a decision commands, if it commands one.
* `Decision.choose`: the decision on a service.

## Main results

* `Decision.choose_eq_scaleUp`, `Decision.choose_eq_scaleDown`: when a service is scaled.
* `Decision.target_choose_eq_some`: the replica counts that are commanded.
-/

namespace QueueScaler

/-- What is to be done with a service. -/
inductive Decision where
  /-- Give it the replicas it needs, or as many as the ceiling allows. -/
  | scaleUp (current target : Nat)
  /-- Take it down. -/
  | scaleDown (current target : Nat)
  /-- Keep it for now, since its last scale-up is too recent; the whole seconds left to wait. -/
  | stabilizing (current remainingSeconds : Nat)
  /-- Leave it as it is. -/
  | noChange
  deriving DecidableEq, Repr

namespace Decision

/-- The replica count that a decision commands. -/
def target : Decision → Option Nat
  | .scaleUp _ target => some target
  | .scaleDown _ target => some target
  | .stabilizing .. => none
  | .noChange => none

/-- The decision on a service with `current` replicas that needs `required`, at a time `since` after
its last scale-up, if it had any. -/
def choose (current required maxReplicas : Nat) (since : Option Span) (window : Span) : Decision :=
  if 1 < current ∧ required = 0 then
    match since with
    | none => .scaleDown current 1
    | some elapsed =>
      if elapsed < window then .stabilizing current (Span.seconds (window - elapsed))
      else .scaleDown current 1
  else if current < required then .scaleUp current (min required maxReplicas)
  else .noChange

variable {current required maxReplicas c t : Nat} {since : Option Span} {window : Span}

theorem choose_eq_scaleUp :
    choose current required maxReplicas since window = .scaleUp c t ↔
      current < required ∧ c = current ∧ t = min required maxReplicas := by
  unfold choose
  split
  · rename_i h
    refine iff_of_false ?_ (by omega)
    split
    · simp
    · split <;> simp
  · split
    · rename_i h
      simp [h, eq_comm]
    · rename_i h
      simp [h]

theorem choose_eq_scaleDown :
    choose current required maxReplicas since window = .scaleDown c t ↔
      1 < current ∧ required = 0 ∧ (∀ elapsed, since = some elapsed → window ≤ elapsed) ∧
        c = current ∧ t = 1 := by
  unfold choose
  split
  · rename_i h
    rw [and_iff_right h.1, and_iff_right h.2]
    cases since with
    | none => simp [eq_comm]
    | some elapsed =>
      simp only [Option.some.injEq, forall_eq']
      split
      · rename_i hlt
        simp [Nat.not_le_of_lt hlt]
      · rename_i hle
        simp [Nat.not_lt.mp hle, eq_comm]
  · rename_i h
    refine iff_of_false ?_ fun hd ↦ h ⟨hd.1, hd.2.1⟩
    split <;> simp

/-- Demand that is not met commands as many replicas as the ceiling allows, and a scale-down
commands a single one. Nothing else is ever commanded. -/
theorem target_choose_eq_some {n : Nat} :
    (choose current required maxReplicas since window).target = some n ↔
      (current < required ∧ n = min required maxReplicas) ∨
        (1 < current ∧ required = 0 ∧ (∀ elapsed, since = some elapsed → window ≤ elapsed) ∧
          n = 1) := by
  constructor
  · intro h
    cases hd : choose current required maxReplicas since window with
    | scaleUp c t =>
      obtain ⟨hlt, -, ht⟩ := choose_eq_scaleUp.mp hd
      rw [hd] at h
      exact .inl ⟨hlt, (Option.some.inj h).symm.trans ht⟩
    | scaleDown c t =>
      obtain ⟨hmany, hzero, hwindow, -, ht⟩ := choose_eq_scaleDown.mp hd
      rw [hd] at h
      exact .inr ⟨hmany, hzero, hwindow, (Option.some.inj h).symm.trans ht⟩
    | stabilizing c remaining =>
      rw [hd] at h
      cases h
    | noChange =>
      rw [hd] at h
      cases h
  · rintro (⟨hlt, rfl⟩ | ⟨hmany, hzero, hwindow, rfl⟩)
    · rw [choose_eq_scaleUp.mpr ⟨hlt, rfl, rfl⟩]
      rfl
    · rw [choose_eq_scaleDown.mpr ⟨hmany, hzero, hwindow, rfl, rfl⟩]
      rfl

/-- A service without any scale-up is never held back. -/
theorem choose_none_ne_stabilizing {remaining : Nat} :
    choose current required maxReplicas none window ≠ .stabilizing c remaining := by
  unfold choose
  split
  · simp
  · split <;> simp

end Decision

end QueueScaler
