import QueueScaler.Proofs.Scaling.Deeds
import QueueScaler.Scaling.Concurrent
/-!
# What is told of a run of several calls

A run of several calls is told by the deeds of the calls in their order, the steps that they have
taken and the reports that they have returned. The deeds account for everything that becomes of what
the calls share.

## Main definitions

* `Phase.Holds`, `Phase.fits`: the phases between taking and releasing the guard, and the steps that
  a call in a phase can take.
* `System.idle`: calls that have not looked at the guard yet.
* `System.stepDeeds`: the deeds of one step of one call.
* `Trace`, `System.trace`: what the calls did, met and returned during a run.
* `System.Told`: what is told fits the state that the run has come to.

## Main results

* `System.memory_stepCall`: what a step does to what is shared is the effect of its deeds.
* `System.stepCall_cases`: what a step can do.
* `System.Told.step_note`: what is told of a run fits its state after each step.
-/

namespace QueueScaler

variable {R : Type}

/-! ### Phases -/

namespace Phase

/-- Whether a call is between taking and releasing the guard. -/
def Holds : Phase R → Prop
  | .waiting => False
  | .sampling .. => True
  | .listing .. => True
  | .commanding _ => True
  | .published _ => True
  | .returned _ => False
  | .died => False

/-- Whether a call in this phase can take a step. -/
def fits : Phase R → Step → Bool
  | .waiting, .enter _ => true
  | .sampling .., .depth _ => true
  | .sampling .., .depthsDone => true
  | .listing .., .listed .. => true
  | .commanding _, .command _ => true
  | .commanding _, .publish => true
  | .published _, .leave => true
  | _, _ => false

/-- The report that a call returns with a step. -/
def outcome? : Phase R → Step → Option (Report R)
  | .published report, .leave => some report
  | _, _ => none

theorem Holds.ne_waiting {phase : Phase R} (h : phase.Holds) : phase ≠ .waiting := by
  rintro rfl
  exact h

theorem Holds.ne_returned {phase : Phase R} (h : phase.Holds) (report : Option (Report R)) :
    phase ≠ .returned report := by
  rintro rfl
  exact h

theorem Holds.ne_died {phase : Phase R} (h : phase.Holds) : phase ≠ .died := by
  rintro rfl
  exact h

theorem outcome?_of_not_fits {phase : Phase R} {step : Step} (h : phase.fits step = false) :
    phase.outcome? step = none := by
  cases phase <;> cases step <;> first | rfl | cases h

end Phase

/-! ### What a run tells -/

/-- What the calls did, met and returned. -/
structure Trace (R : Type) where
  /-- The deeds, with the numbers of the calls. -/
  deeds : List (Nat × Deed R) := []
  /-- The steps that the calls have taken. -/
  steps : List (Nat × Step) := []
  /-- The reports that the calls have returned. -/
  returns : List (Nat × Report R) := []

/-- The steps that one call has taken. -/
def Trace.stepsOf (t : Trace R) (i : Nat) : List Step := (t.steps.filter (·.1 = i)).map Prod.snd

namespace System

variable [Rate R] (a : Autoscaler R)

/-- Calls that have not looked at the guard yet. -/
def idle (m : Memory R) (n : Nat) : System R := { memory := m, calls := List.replicate n .waiting }

/-- Whether a call is between taking and releasing the guard. -/
def Holds (s : System R) (i : Nat) : Prop := ∃ phase, s.calls[i]? = some phase ∧ phase.Holds

/-- The deeds of a step of a call. -/
def stepDeeds (guarded : Bool) (m : Memory R) : Phase R → Step → List (Deed R)
  | .waiting, .enter _ => if guarded then [] else a.queries
  | .sampling _ _, .depth arrival => Deed.ofSample arrival
  | .sampling _ _, .depthsDone => if a.strategy.scalingEnabled then [.list] else []
  | .listing start sample, .listed listing now =>
    if listing.failure? = some .aborted then []
    else Deed.commands (a.assess start sample listing m.history now)
  | .commanding report, .command arrival => Deed.ofCommand report.decisions arrival
  | .commanding report, .publish => [.publish report]
  | _, _ => []

/-- Adds a step to what is told of a run. -/
def note (s : System R) (t : Trace R) (event : Nat × Step) : Trace R :=
  match s.calls[event.1]? with
  | none => t
  | some phase =>
    { deeds := t.deeds ++ (stepDeeds a s.guarded s.memory phase event.2).map (event.1, ·)
      steps := if phase.fits event.2 then t.steps ++ [event] else t.steps
      returns := t.returns ++ (phase.outcome? event.2).toList.map (event.1, ·) }

/-- One step of one call, and what is told of it. -/
def observe (st : System R × Trace R) (event : Nat × Step) : System R × Trace R :=
  (st.1.step a event, st.1.note a st.2 event)

/-- What is told of a run. -/
def trace (s : System R) (events : List (Nat × Step)) : Trace R :=
  (events.foldl (observe a) (s, {})).2

/-! ### One step -/

section Step

variable {a : Autoscaler R} {s : System R} {t : Trace R} {i j : Nat} {phase : Phase R}
  {step : Step} {guarded : Bool} {m : Memory R}

/-- Unless the listing has died, the call decides. -/
theorem stepCall_listed {start now : Instant} {sample : Sample} {listing : Answer (Table Nat)}
    (h : listing ≠ .error .aborted) :
    stepCall a guarded m (.listing start sample) (.listed listing now) =
      (.commanding (a.assess start sample listing m.history now), guarded, m) :=
  if_neg (mt Answer.failure?_eq_some_iff.mp h)

theorem stepDeeds_listed {start now : Instant} {sample : Sample} {listing : Answer (Table Nat)}
    (h : listing ≠ .error .aborted) :
    stepDeeds a guarded m (.listing start sample) (.listed listing now) =
      Deed.commands (a.assess start sample listing m.history now) :=
  if_neg (mt Answer.failure?_eq_some_iff.mp h)

theorem memory_stepCall :
    (stepCall a guarded m phase step).2.2 =
      (stepDeeds a guarded m phase step).foldl Deed.apply m := by
  cases phase with
  | waiting =>
    cases step with
    | enter now =>
      cases guarded with
      | true => rfl
      | false => exact (a.foldl_apply_queries m).symm
    | _ => rfl
  | sampling start sample =>
    cases step with
    | depth c => exact (Deed.foldl_apply_ofSample m c).symm
    | depthsDone =>
      simp only [stepCall, stepDeeds]
      split <;> rfl
    | _ => rfl
  | listing start sample =>
    cases step with
    | listed listing now =>
      by_cases hdead : listing = .error .aborted
      · subst hdead
        rfl
      · rw [stepCall_listed hdead, stepDeeds_listed hdead]
        exact (Deed.foldl_apply_commands m _).symm
    | _ => rfl
  | commanding report =>
    cases step with
    | command c => exact (Deed.foldl_apply_ofCommand m report c).symm
    | _ => rfl
  | published report => cases step <;> rfl
  | returned report => cases step <;> rfl
  | died => cases step <;> rfl

/-- What a step can do: a call looks at the guard, goes on between taking and releasing it, or
releases it, be it in going back or in dying. -/
theorem stepCall_cases (a : Autoscaler R) (guarded : Bool) (m : Memory R)
    (hfits : phase.fits step = true) :
    (∃ now, phase = .waiting ∧ step = .enter now) ∨
      (phase.Holds ∧ (stepCall a guarded m phase step).1.Holds ∧ phase.outcome? step = none) ∨
      (∃ report, phase = .published report ∧ step = .leave) ∨
      ∃ start sample now, phase = .listing start sample ∧
        step = .listed (.error .aborted) now := by
  cases phase with
  | waiting =>
    cases step with
    | enter now => exact .inl ⟨now, rfl, rfl⟩
    | _ => cases hfits
  | sampling start sample =>
    cases step with
    | depth c => exact .inr (.inl ⟨trivial, trivial, rfl⟩)
    | depthsDone =>
      refine .inr (.inl ⟨trivial, ?_⟩)
      simp only [stepCall]
      split <;> exact ⟨trivial, rfl⟩
    | _ => cases hfits
  | listing start sample =>
    cases step with
    | listed listing now =>
      by_cases hdead : listing = .error .aborted
      · exact .inr (.inr (.inr ⟨start, sample, now, rfl, by rw [hdead]⟩))
      · refine .inr (.inl ⟨trivial, ?_, rfl⟩)
        rw [stepCall_listed hdead]
        trivial
    | _ => cases hfits
  | commanding report =>
    cases step with
    | command c => exact .inr (.inl ⟨trivial, trivial, rfl⟩)
    | publish => exact .inr (.inl ⟨trivial, trivial, rfl⟩)
    | _ => cases hfits
  | published report =>
    cases step with
    | leave => exact .inr (.inr (.inl ⟨report, rfl, rfl⟩))
    | _ => cases hfits
  | returned report => cases step <;> cases hfits
  | died => cases step <;> cases hfits

theorem stepCall_ne_waiting (hfits : phase.fits step = true) :
    (stepCall a guarded m phase step).1 ≠ .waiting := by
  rcases stepCall_cases a guarded m hfits with
    ⟨now, rfl, rfl⟩ | ⟨-, hholds, -⟩ | ⟨r, rfl, rfl⟩ | ⟨_, _, _, rfl, rfl⟩
  · cases guarded <;> exact nofun
  · exact hholds.ne_waiting
  · exact nofun
  · exact nofun

/-- A call that goes back without a report has found the guard held, and has done nothing. -/
theorem of_stepCall_eq_none (hfits : phase.fits step = true)
    (h : (stepCall a guarded m phase step).1 = .returned none) :
    phase = .waiting ∧ stepDeeds a guarded m phase step = [] := by
  rcases stepCall_cases a guarded m hfits with
    ⟨now, rfl, rfl⟩ | ⟨-, hholds, -⟩ | ⟨r, rfl, rfl⟩ | ⟨_, _, _, rfl, rfl⟩
  · cases guarded with
    | true => exact ⟨rfl, rfl⟩
    | false => cases h
  · exact absurd h (hholds.ne_returned none)
  · cases h
  · cases h

/-- A call goes back with the report that it returns. -/
theorem stepCall_eq_returned_iff {report : Report R} (hfits : phase.fits step = true) :
    (stepCall a guarded m phase step).1 = .returned (some report) ↔
      phase.outcome? step = some report := by
  rcases stepCall_cases a guarded m hfits with
    ⟨now, rfl, rfl⟩ | ⟨-, hholds, hnone⟩ | ⟨r, rfl, rfl⟩ | ⟨_, _, _, rfl, rfl⟩
  · cases guarded <;> exact ⟨nofun, nofun⟩
  · rw [hnone]
    exact ⟨fun h ↦ absurd h (hholds.ne_returned _), nofun⟩
  · simp [stepCall, Phase.outcome?]
  · exact ⟨nofun, nofun⟩

theorem stepCall_of_not_fits (h : phase.fits step = false) :
    stepCall a guarded m phase step = (phase, guarded, m) := by
  cases phase <;> cases step <;> first | rfl | cases h

theorem stepDeeds_of_not_fits (h : phase.fits step = false) :
    stepDeeds a guarded m phase step = [] := by
  cases phase <;> cases step <;> first | rfl | cases h

theorem step_eq (hi : s.calls[i]? = some phase) :
    s.step a (i, step) =
      { guarded := (stepCall a s.guarded s.memory phase step).2.1
        memory := (stepCall a s.guarded s.memory phase step).2.2
        calls := s.calls.set i (stepCall a s.guarded s.memory phase step).1 } := by
  rw [System.step, hi]

theorem getElem?_calls_step (hi : s.calls[i]? = some phase) (j : Nat) :
    (s.step a (i, step)).calls[j]? =
      if j = i then some (stepCall a s.guarded s.memory phase step).1 else s.calls[j]? := by
  obtain ⟨hlt, -⟩ := List.getElem?_eq_some_iff.mp hi
  rw [step_eq hi, List.getElem?_set]
  by_cases hj : j = i
  · rw [if_pos hj.symm, if_pos hj, if_pos hlt]
  · rw [if_neg (Ne.symm hj), if_neg hj]

theorem holds_step_self (hi : s.calls[i]? = some phase) :
    (s.step a (i, step)).Holds i ↔ (stepCall a s.guarded s.memory phase step).1.Holds := by
  simp only [Holds, getElem?_calls_step hi, if_true, Option.some.injEq, exists_eq_left']

theorem holds_step_of_ne (hi : s.calls[i]? = some phase) (hj : j ≠ i) :
    (s.step a (i, step)).Holds j ↔ s.Holds j := by
  simp only [Holds, getElem?_calls_step hi, if_neg hj]

theorem note_eq (hi : s.calls[i]? = some phase) (hfits : phase.fits step = true) :
    s.note a t (i, step) =
      { deeds := t.deeds ++ (stepDeeds a s.guarded s.memory phase step).map (i, ·)
        steps := t.steps ++ [(i, step)]
        returns := t.returns ++ (phase.outcome? step).toList.map (i, ·) } := by
  rw [note, hi]
  simp only [hfits, if_true]

theorem stepsOf_note (hi : s.calls[i]? = some phase) (hfits : phase.fits step = true) (j : Nat) :
    (s.note a t (i, step)).stepsOf j =
      if j = i then t.stepsOf j ++ [step] else t.stepsOf j := by
  rw [note_eq hi hfits, Trace.stepsOf, Trace.stepsOf, List.filter_append, List.map_append]
  by_cases hj : j = i
  · rw [if_pos hj, List.filter_singleton]
    simp [hj]
  · rw [if_neg hj, List.filter_singleton]
    simp [Ne.symm hj]

/-- A step of a call that is not there, or that does not fit its phase, tells nothing. -/
theorem step_note_eq_self (h : ∀ phase, s.calls[i]? = some phase → phase.fits step = false) :
    s.step a (i, step) = s ∧ s.note a t (i, step) = t := by
  rcases hi : s.calls[i]? with _ | phase
  · simp [System.step, note, hi]
  · have hset : s.calls.set i phase = s.calls := by
      obtain ⟨hlt, rfl⟩ := List.getElem?_eq_some_iff.mp hi
      exact List.set_getElem_self hlt
    simp [System.step, note, hi, h phase hi, stepCall_of_not_fits, stepDeeds_of_not_fits,
      Phase.outcome?_of_not_fits, hset]

end Step

/-! ### Runs -/

theorem run_append (s : System R) (events : List (Nat × Step)) (event : Nat × Step) :
    s.run a (events ++ [event]) = (s.run a events).step a event := by
  rw [run, List.foldl_append]
  rfl

theorem trace_append (s : System R) (events : List (Nat × Step)) (event : Nat × Step) :
    s.trace a (events ++ [event]) = (s.run a events).note a (s.trace a events) event := by
  have hrun (st : System R × Trace R) : (events.foldl (observe a) st).1 = st.1.run a events := by
    induction events generalizing st with
    | nil => rfl
    | cons event events ih => exact ih (observe a st event)
  rw [trace, List.foldl_append, List.foldl_cons, List.foldl_nil, observe, hrun]
  rfl

/-! ### The story of a run -/

section Told

variable {a : Autoscaler R} {m : Memory R} {s : System R} {t : Trace R} {i : Nat} {phase : Phase R}
  {step : Step}

/-- Whether what is told of a run fits the state it has come to. -/
structure Told (m : Memory R) (s : System R) (t : Trace R) : Prop where
  /-- What is shared is the effect of the deeds. -/
  memory : s.memory = (t.deeds.map Prod.snd).foldl Deed.apply m
  /-- The calls that have gone back with a report are those that returned it. -/
  returned : ∀ i report, s.calls[i]? = some (.returned (some report)) ↔ (i, report) ∈ t.returns
  /-- A call that waits has taken no step. -/
  waiting : ∀ i, s.calls[i]? = some .waiting → t.stepsOf i = []
  /-- A call that waits, or has gone back without a report, has done nothing. -/
  inactive : ∀ i, s.calls[i]? = some .waiting ∨ s.calls[i]? = some (.returned none) →
    ∀ d ∈ t.deeds, d.1 ≠ i

omit [Rate R] in
theorem told_idle (m : Memory R) (n : Nat) : Told m (idle m n) {} where
  memory := rfl
  returned i report := by
    rw [idle, List.getElem?_replicate]
    split <;> simp
  waiting _ _ := rfl
  inactive _ _ _ hd := absurd hd List.not_mem_nil

theorem Told.step_note (h : Told m s t) (hi : s.calls[i]? = some phase)
    (hfits : phase.fits step = true) :
    Told m (s.step a (i, step)) (s.note a t (i, step)) where
  memory := by
    rw [step_eq hi, note_eq hi hfits, List.map_append, List.foldl_append, ← h.memory,
      map_snd_numbered]
    exact memory_stepCall
  returned j report := by
    rw [getElem?_calls_step hi, note_eq hi hfits, List.mem_append, ← h.returned]
    by_cases hj : j = i
    · subst hj
      have hne : s.calls[j]? ≠ some (.returned (some report)) := fun heq ↦ by
        rw [Option.some.inj (hi.symm.trans heq)] at hfits
        cases hfits
      rw [if_pos rfl, Option.some.injEq, stepCall_eq_returned_iff hfits, or_iff_right hne]
      simp
    · rw [if_neg hj]
      simp [Ne.symm hj]
  waiting j hj := by
    rw [getElem?_calls_step hi] at hj
    rw [stepsOf_note hi hfits]
    split at hj
    · exact absurd (Option.some.inj hj) (stepCall_ne_waiting hfits)
    · rename_i hne
      rw [if_neg hne, h.waiting j hj]
  inactive j hj d hd := by
    rw [getElem?_calls_step hi] at hj
    rw [note_eq hi hfits, List.mem_append] at hd
    split at hj
    · rename_i heq
      subst heq
      obtain ⟨rfl, hnone⟩ := of_stepCall_eq_none hfits
        (Option.some.inj (hj.resolve_left fun hj ↦ stepCall_ne_waiting hfits (Option.some.inj hj)))
      rw [hnone] at hd
      exact h.inactive j (.inl hi) d (hd.resolve_right List.not_mem_nil)
    · rename_i hne
      rcases hd with hd | hd
      · exact h.inactive j hj d hd
      · obtain ⟨_, -, rfl⟩ := List.mem_map.mp hd
        exact Ne.symm hne

end Told

end System

end QueueScaler
