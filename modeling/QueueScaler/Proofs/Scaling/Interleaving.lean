import QueueScaler.Proofs.Scaling.Trace
/-!
# Ticks never interleave

However the steps of several calls are interleaved, the call that holds the guard is the only one
that does anything. So the deeds of all calls together are those of whole ticks, one after the
other, in the order in which they come to their ends, and the deeds so far of the one under way. A
tick that dies comes to its end without a report.

## Main definitions

* `Autoscaler.Underway`: how far a tick is, from the steps it has taken and what it has done.
* `System.alone`: the steps of a call while no other call takes a step.
* `System.Turn`, `System.Serial`: whose turn it is, and runs of ticks in turn.

## Main results

* `Autoscaler.Underway.step`: a step of the call that holds the guard.
* `System.run_steps`: a call that is left alone does one whole tick.
* `System.Serial.skip`, `System.Serial.begin`, `System.Serial.proceed`, `System.Serial.finish`: a
  step of any call.
* `System.serial_run`: every run is one of ticks in turn, at every moment.
* `System.ticks_in_turn`: ticks never interleave.
-/

namespace QueueScaler

variable {R : Type} [Rate R]

/-! ### A tick under way -/

/-- The steps of a call while it samples. -/
def Encounter.samplingSteps (e : Encounter) : List Step :=
  .enter e.startedAt :: e.samples.map .depth

/-- The steps of a call before it publishes its report. -/
def Encounter.unpublishedSteps (e : Encounter) (scalingEnabled : Bool) : List Step :=
  e.samplingSteps ++ [.depthsDone] ++
    (if scalingEnabled then [.listed e.listing e.decidedAt] else []) ++ e.commands.map .command

theorem Encounter.steps_of_lives {e : Encounter} {scalingEnabled : Bool}
    (h : e.dies scalingEnabled = false) :
    e.steps scalingEnabled = e.unpublishedSteps scalingEnabled ++ [.publish, .leave] := by
  simp [steps, unpublishedSteps, samplingSteps, h]

/-- The last thing that a call which dies has met is its listing. -/
theorem Encounter.steps_of_dies {e : Encounter} {scalingEnabled : Bool}
    (h : e.dies scalingEnabled = true) :
    e.steps scalingEnabled =
      e.samplingSteps ++ [.depthsDone] ++ [.listed (.error .aborted) e.decidedAt] := by
  obtain ⟨hon, hlisting⟩ := dies_iff.mp h
  rw [steps, if_pos hon, if_pos h, hlisting]
  exact List.append_nil _

namespace Autoscaler

variable (a : Autoscaler R)

/-- How far a tick is, from the steps it has taken and what it has done. It began with the memory
`m` and has met what `e` says; what it has not met yet does not matter. -/
inductive Underway (m : Memory R) : Phase R → List Step → List (Deed R) → Prop
  /-- Depth queries are under way. -/
  | sampling (e : Encounter) :
    Underway m (.sampling e.startedAt (e.samples.foldl Sample.note {})) e.samplingSteps
      (a.sampling e)
  /-- It waits for the listing. -/
  | listing (e : Encounter) (hon : a.strategy.scalingEnabled = true) :
    Underway m (.listing e.startedAt (a.sample e.samples)) (e.samplingSteps ++ [.depthsDone])
      (a.sampling e ++ [.list])
  /-- Commands are under way. -/
  | commanding (e : Encounter) (hlives : e.dies a.strategy.scalingEnabled = false) :
    Underway m (.commanding (a.tick m e).1) (e.unpublishedSteps a.strategy.scalingEnabled)
      (a.unpublished m e)
  /-- The report is published. -/
  | published (e : Encounter) (hlives : e.dies a.strategy.scalingEnabled = false) :
    Underway m (.published (a.tick m e).1)
      (e.unpublishedSteps a.strategy.scalingEnabled ++ [.publish]) (a.deeds m e)

namespace Underway

variable {a : Autoscaler R} {m : Memory R} {phase : Phase R} {steps : List Step}
  {deeds : List (Deed R)} {start : Instant} {sample : Sample}

theorem holds (h : a.Underway m phase steps deeds) : phase.Holds := by
  cases h <;> trivial

/-- What a tick has done so far is the beginning of what some tick does. -/
theorem exists_prefix (h : a.Underway m phase steps deeds) : ∃ e, deeds <+: a.deeds m e := by
  cases h with
  | sampling e =>
    refine ⟨e, ?_⟩
    simp only [Autoscaler.deeds, unpublished, List.append_assoc]
    exact List.prefix_append ..
  | listing e hon =>
    refine ⟨e, ?_⟩
    rw [Autoscaler.deeds, unpublished, if_pos hon, List.append_assoc, List.append_assoc]
    exact List.prefix_append ..
  | commanding e hlives => exact ⟨e, List.prefix_append ..⟩
  | published e hlives => exact ⟨e, List.prefix_refl _⟩

/-- The history is as it was when the tick began until commands are answered. -/
theorem history_of_sampling (h : a.Underway m (.sampling start sample) steps deeds) :
    (deeds.foldl Deed.apply m).history = m.history := by
  cases h
  rw [foldl_apply_sampling]

theorem history_of_listing (h : a.Underway m (.listing start sample) steps deeds) :
    (deeds.foldl Deed.apply m).history = m.history := by
  cases h
  rw [List.foldl_append, foldl_apply_sampling]
  rfl

/-- With scaling disabled the call decides as soon as the queries are done. -/
theorem decided_of_disabled (hoff : a.strategy.scalingEnabled = false) (e : Encounter) :
    a.Underway m (.commanding (a.assess e.startedAt (a.sample e.samples) (.ok ∅) m.history
      e.startedAt)) (e.samplingSteps ++ [.depthsDone]) (a.sampling e) := by
  let e' : Encounter := { e with listing := .ok ∅, decidedAt := e.startedAt, commands := [] }
  have h := commanding (a := a) (m := m) e' (by rw [hoff]; rfl)
  rw [unpublished, a.commands_decisions_eq_nil (.inl hoff)] at h
  simpa [hoff, Autoscaler.decisions, Autoscaler.tick, Autoscaler.sampling,
    Encounter.samplingSteps, Encounter.unpublishedSteps, e'] using h

/-- Otherwise it decides when it has heard of the listing, unless this has died. -/
theorem decided_of_listed (hon : a.strategy.scalingEnabled = true) (e : Encounter)
    {listing : Answer (Table Nat)} (hlisting : listing ≠ .error .aborted) (now : Instant) :
    let report := a.assess e.startedAt (a.sample e.samples) listing m.history now
    a.Underway m (.commanding report) (e.samplingSteps ++ [.depthsDone] ++ [.listed listing now])
      (a.sampling e ++ [.list] ++ Deed.commands report) := by
  let e' : Encounter := { e with listing, decidedAt := now, commands := [] }
  have hlives : e'.dies a.strategy.scalingEnabled = false :=
    Bool.eq_false_of_not_eq_true fun h ↦ hlisting (Encounter.dies_iff.mp h).2
  have h := commanding (a := a) (m := m) e' hlives
  simpa [unpublished, hon, Autoscaler.decisions, Autoscaler.tick, Autoscaler.sampling,
    Encounter.samplingSteps, Encounter.unpublishedSteps, e'] using h

/-- **A step of the call that holds the guard** keeps it under way, or else the tick is over: the
guard is free again, everything that some encounter has in store was met and done, and the call has
gone back with what the tick returns, or has died if the tick dies. -/
theorem step (h : a.Underway m phase steps deeds) {guarded : Bool} (hguarded : guarded = true)
    {memory : Memory R} (hmemory : memory = deeds.foldl Deed.apply m) {step : Step}
    (hfits : phase.fits step = true) :
    let after := System.stepCall a guarded memory phase step
    let done := deeds ++ System.stepDeeds a guarded memory phase step
    (after.2.1 = true ∧ a.Underway m after.1 (steps ++ [step]) done) ∨
      after.2.1 = false ∧ ¬ after.1.Holds ∧
        ∃ e : Encounter, steps ++ [step] = e.steps a.strategy.scalingEnabled ∧
          done = a.deeds m e ∧ phase.outcome? step = a.returned? m e ∧
          (after.1 = .died ↔ e.dies a.strategy.scalingEnabled = true) := by
  subst hguarded hmemory
  cases h with
  | sampling e =>
    cases step with
    | depth c =>
      refine .inl ⟨rfl, ?_⟩
      have h := sampling (a := a) (m := m) { e with samples := e.samples ++ [c] }
      simpa [System.stepCall, System.stepDeeds, Autoscaler.sampling,
        Encounter.samplingSteps] using h
    | depthsDone =>
      refine .inl ?_
      by_cases hon : a.strategy.scalingEnabled = true
      · simpa [System.stepCall, System.stepDeeds, hon, sample] using listing (m := m) e hon
      · have hoff : a.strategy.scalingEnabled = false := Bool.eq_false_of_not_eq_true hon
        have hhistory := (sampling (a := a) (m := m) e).history_of_sampling
        simp only [System.stepCall, System.stepDeeds, hhistory, if_neg hon, List.append_nil]
        exact ⟨trivial, decided_of_disabled hoff e⟩
    | _ => cases hfits
  | listing e hon =>
    cases step with
    | listed listing now =>
      by_cases hdead : listing = .error .aborted
      · -- The tick ends here, so the commands of the encounter are never looked at.
        subst hdead
        let e' : Encounter := { e with listing := .error .aborted, decidedAt := now }
        have hdies : e'.dies a.strategy.scalingEnabled = true := Encounter.dies_iff.mpr ⟨hon, rfl⟩
        refine .inr ⟨rfl, id, e', ?_, ?_, ?_, iff_of_true rfl hdies⟩
        · exact (Encounter.steps_of_dies hdies).symm
        · rw [a.deeds_of_dies hdies]
          exact List.append_nil _
        · rw [returned?, if_pos hdies]
          rfl
      · have hhistory := (Underway.listing (m := m) e hon).history_of_listing
        refine .inl ?_
        rw [System.stepCall_listed hdead, System.stepDeeds_listed hdead, hhistory]
        exact ⟨rfl, decided_of_listed hon e hdead now⟩
    | _ => cases hfits
  | commanding e hlives =>
    cases step with
    | command c =>
      have h := commanding (a := a) (m := m) { e with commands := e.commands ++ [c] } hlives
      refine .inl ⟨rfl, ?_⟩
      simp only [System.stepCall, System.stepDeeds, foldl_apply_unpublished, decisions_tick]
      simpa [unpublished, Autoscaler.sampling, Autoscaler.decisions, Autoscaler.tick,
        Encounter.samplingSteps, Encounter.unpublishedSteps] using h
    | publish =>
      refine .inl ⟨rfl, ?_⟩
      have h := published (m := m) e hlives
      rwa [Autoscaler.deeds, returned?_of_lives hlives] at h
    | _ => cases hfits
  | published e hlives =>
    cases step with
    | leave =>
      refine .inr ⟨rfl, id, e, ?_, List.append_nil _, ?_, iff_of_false (fun h ↦ by cases h) ?_⟩
      · rw [Encounter.steps_of_lives hlives, List.append_assoc]
        rfl
      · exact (returned?_of_lives hlives).symm
      · rw [hlives]
        exact Bool.false_ne_true
    | _ => cases hfits

end Underway

end Autoscaler

/-! ### A call by itself -/

namespace System

/-- The steps of a call, and what becomes of the guard and of what is shared, while no other call
takes a step. -/
def alone (a : Autoscaler R) (c : Phase R × Bool × Memory R) (steps : List Step) :
    Phase R × Bool × Memory R :=
  steps.foldl (fun c step ↦ stepCall a c.2.1 c.2.2 c.1 step) c

variable {a : Autoscaler R}

theorem alone_append (c : Phase R × Bool × Memory R) (steps steps' : List Step) :
    alone a c (steps ++ steps') = alone a (alone a c steps) steps' := List.foldl_append

theorem alone_depths (start : Instant) (samples : List (Arrival Nat)) (sample : Sample)
    (guarded : Bool) (m : Memory R) :
    alone a (.sampling start sample, guarded, m) (samples.map .depth) =
      (.sampling start (samples.foldl Sample.note sample), guarded,
        { m with gauges := samples.foldl Gauges.note m.gauges }) := by
  induction samples generalizing sample m with
  | nil => rfl
  | cons c samples ih => exact ih (sample.note c) { m with gauges := m.gauges.note c }

theorem alone_commands (commands : List (Arrival Unit)) (report : Report R) (guarded : Bool)
    (m : Memory R) :
    alone a (.commanding report, guarded, m) (commands.map .command) =
      let rh := commands.foldl (fun (r, h) c ↦ r.acknowledge h c) (report, m.history)
      (.commanding rh.1, guarded, { m with history := rh.2 }) := by
  induction commands generalizing report m with
  | nil => rfl
  | cons c commands ih =>
    exact ih (report.acknowledge m.history c).1
      { m with history := (report.acknowledge m.history c).2 }

/-- The steps of an encounter take a call that finds the guard free through a whole tick. -/
theorem alone_steps (a : Autoscaler R) (m : Memory R) (e : Encounter) :
    alone a (.waiting, false, m) (e.steps a.strategy.scalingEnabled) =
      ((a.returned? m e).elim .died fun r ↦ .returned (some r), false, (a.tick m e).2) := by
  have hsampled : alone a (.waiting, false, m) (.enter e.startedAt :: e.samples.map .depth) =
      (.sampling e.startedAt (e.samples.foldl Sample.note {}), true,
        { m with gauges := e.samples.foldl Gauges.note m.gauges }) :=
    alone_depths e.startedAt e.samples {} true m
  rw [Encounter.steps, alone_append, alone_append, alone_append, hsampled]
  cases hdies : e.dies a.strategy.scalingEnabled with
  | true =>
    obtain ⟨hon, hlisting⟩ := Encounter.dies_iff.mp hdies
    rw [if_pos hon, if_pos rfl, hlisting, Autoscaler.returned?, if_pos hdies,
      (a.tick_of_dies m hdies).2]
    simp only [alone, List.foldl_cons, List.foldl_nil, stepCall, hon, if_true]
    rfl
  | false =>
    -- With scaling disabled there is no listing to be met, and the report does not depend on it.
    have hdecided : alone a (alone a (.sampling e.startedAt (e.samples.foldl Sample.note {}), true,
          { m with gauges := e.samples.foldl Gauges.note m.gauges }) [.depthsDone])
        (if a.strategy.scalingEnabled then [.listed e.listing e.decidedAt] else []) =
        (.commanding (a.decisions m e), true,
          { m with gauges := e.samples.foldl Gauges.note m.gauges }) := by
      simp only [alone, List.foldl_cons, List.foldl_nil, stepCall]
      by_cases hon : a.strategy.scalingEnabled = true
      · have hlisted : e.listing ≠ .error .aborted := fun hdead ↦
          Bool.false_ne_true (hdies.symm.trans (Encounter.dies_iff.mpr ⟨hon, hdead⟩))
        rw [if_pos hon, if_pos hon]
        exact stepCall_listed (a := a) hlisted
      · rw [if_neg hon, if_neg hon]
        simp [Autoscaler.decisions, Autoscaler.assess, hon, Autoscaler.sample]
    rw [if_neg Bool.false_ne_true, Autoscaler.returned?_of_lives hdies, hdecided, alone_append,
      alone_commands, Autoscaler.tick, hdies]
    rfl

variable {s : System R} {i : Nat} {phase : Phase R}

/-- A run in which one call alone takes steps. -/
theorem run_alone (hi : s.calls[i]? = some phase) (steps : List Step) :
    s.run a (steps.map (i, ·)) =
      let c := alone a (phase, s.guarded, s.memory) steps
      { guarded := c.2.1, memory := c.2.2, calls := s.calls.set i c.1 } := by
  induction steps generalizing s phase with
  | nil =>
    obtain ⟨hlt, rfl⟩ := List.getElem?_eq_some_iff.mp hi
    show s = { s with calls := s.calls.set i s.calls[i] }
    rw [List.set_getElem_self hlt]
  | cons step steps ih =>
    have hnext : (s.step a (i, step)).calls[i]? =
        some (stepCall a s.guarded s.memory phase step).1 := by
      rw [getElem?_calls_step hi, if_pos rfl]
    have hrest := ih hnext
    simp only [step_eq hi, List.set_set] at hrest
    exact (congrArg (run a · (steps.map (i, ·))) (step_eq hi)).trans hrest

/-- **A call that finds the guard free and is left alone** does one whole tick, and gives the guard
back when it returns its report or dies. -/
theorem run_steps (hfree : s.guarded = false) (hi : s.calls[i]? = some .waiting) (e : Encounter) :
    s.run a ((e.steps a.strategy.scalingEnabled).map (i, ·)) =
      { guarded := false
        memory := (a.tick s.memory e).2
        calls := s.calls.set i
          ((a.returned? s.memory e).elim .died fun r ↦ .returned (some r)) } := by
  rw [run_alone hi, hfree, alone_steps]

end System

/-! ### Ticks in turn -/

namespace System

variable {a : Autoscaler R} {m : Memory R} {s : System R} {t : Trace R}
  {done : List (Nat × Encounter)} {i : Nat} {phase : Phase R} {step : Step}

/-- Whose turn it is, given the ticks that have come to their ends. -/
inductive Turn (a : Autoscaler R) (m : Memory R) (s : System R) (t : Trace R)
    (done : List (Nat × Encounter)) : Prop
  /-- It is nobody's turn. -/
  | free (guard : s.guarded = false) (none : ∀ i, ¬ s.Holds i)
      (deeds : t.deeds = a.inTurn a.deeds m done)
  /-- It is the turn of one call. -/
  | held (i : Nat) (phase : Phase R) (begun : List (Deed R)) (guard : s.guarded = true)
      (call : s.calls[i]? = some phase) (only : ∀ j, s.Holds j → j = i)
      (underway : a.Underway (a.after m (done.map Prod.snd)) phase (t.stepsOf i) begun)
      (deeds : t.deeds = a.inTurn a.deeds m done ++ begun.map (i, ·))

/-- Whether a run has been one of ticks in turn so far, given those that have come to their ends. -/
structure Serial (a : Autoscaler R) (m : Memory R) (s : System R) (t : Trace R)
    (done : List (Nat × Encounter)) : Prop where
  /-- The reports are those of the ticks, in their order. -/
  returns : t.returns = a.reportsInTurn m done
  /-- No call has come to its end twice. -/
  nodup : (done.map Prod.fst).Nodup
  /-- The ticks have met what their calls have met. -/
  steps : ∀ i e, (i, e) ∈ done → t.stepsOf i = e.steps a.strategy.scalingEnabled
  /-- The calls that have died are those of the ticks that die. -/
  died : ∀ i, s.calls[i]? = some .died ↔
    ∃ e, (i, e) ∈ done ∧ e.dies a.strategy.scalingEnabled = true
  /-- The deeds are those of the ticks, and of the call whose turn it is. -/
  turn : Turn a m s t done

theorem serial_idle (m : Memory R) (n : Nat) : Serial a m (idle m n) {} [] where
  returns := rfl
  nodup := List.nodup_nil
  steps _ _ h := absurd h List.not_mem_nil
  died i := by
    rw [idle, List.getElem?_replicate]
    split <;> simp
  turn := by
    refine .free rfl (fun i hi ↦ ?_) rfl
    obtain ⟨phase, hi, hholds⟩ := hi
    rw [idle, List.getElem?_replicate] at hi
    split at hi
    · exact hholds.ne_waiting (Option.some.inj hi).symm
    · cases hi

/-- A call that has come to its end has gone back with a report, or has died. -/
theorem Serial.exists_over (h : Serial a m s t done) (htold : Told m s t) {e : Encounter}
    (hmem : (i, e) ∈ done) :
    (∃ report, s.calls[i]? = some (.returned (some report))) ∨ s.calls[i]? = some .died := by
  cases hdies : e.dies a.strategy.scalingEnabled with
  | true => exact .inr ((h.died i).mpr ⟨e, hmem, hdies⟩)
  | false =>
    obtain ⟨report, hreport⟩ := Autoscaler.exists_mem_reportsInTurn m hmem hdies
    rw [← h.returns] at hreport
    exact .inl ⟨report, (htold.returned i report).mpr hreport⟩

/-- So a call that can take a step has not come to its end. -/
theorem Serial.fresh (h : Serial a m s t done) (htold : Told m s t)
    (hi : s.calls[i]? = some phase) (hfits : phase.fits step = true) :
    i ∉ done.map Prod.fst := by
  intro hmem
  obtain ⟨⟨_, e⟩, hdone, rfl⟩ := List.mem_map.mp hmem
  rcases h.exists_over htold hdone with ⟨report, hover⟩ | hover
  · rw [Option.some.inj (hi.symm.trans hover)] at hfits
    cases hfits
  · rw [Option.some.inj (hi.symm.trans hover)] at hfits
    cases hfits

theorem Serial.steps_note (h : Serial a m s t done) (htold : Told m s t)
    (hi : s.calls[i]? = some phase) (hfits : phase.fits step = true) :
    ∀ j e, (j, e) ∈ done →
      (s.note a t (i, step)).stepsOf j = e.steps a.strategy.scalingEnabled := by
  intro j e hmem
  have hne : j ≠ i := by
    rintro rfl
    exact h.fresh htold hi hfits (List.mem_map_of_mem hmem)
  rw [stepsOf_note hi hfits, if_neg hne, h.steps j e hmem]

theorem Serial.died_step (h : Serial a m s t done)
    (hi : s.calls[i]? = some phase) (hfits : phase.fits step = true)
    (hlives : (stepCall a s.guarded s.memory phase step).1 ≠ .died) (j : Nat) :
    (s.step a (i, step)).calls[j]? = some .died ↔
      ∃ e, (j, e) ∈ done ∧ e.dies a.strategy.scalingEnabled = true := by
  rw [getElem?_calls_step hi, ← h.died]
  by_cases hj : j = i
  · subst hj
    rw [if_pos rfl, Option.some.injEq]
    refine iff_of_false hlives fun hdied ↦ ?_
    rw [Option.some.inj (hi.symm.trans hdied)] at hfits
    cases hfits
  · rw [if_neg hj]

/-- What is shared is what the ticks have left behind, and the effect of what has been done
since. -/
theorem Told.memory_eq (h : Told m s t) {begun : List (Deed R)}
    (hdeeds : t.deeds = a.inTurn a.deeds m done ++ begun.map (i, ·)) :
    s.memory = begun.foldl Deed.apply (a.after m (done.map Prod.snd)) := by
  rw [h.memory, hdeeds, List.map_append, List.foldl_append, Autoscaler.foldl_apply_inTurn,
    map_snd_numbered]

/-- A call that finds the guard held goes back. -/
theorem Serial.skip (h : Serial a m s t done) (htold : Told m s t) {now : Instant}
    (hi : s.calls[i]? = some .waiting) (hguard : s.guarded = true) :
    Serial a m (s.step a (i, .enter now)) (s.note a t (i, .enter now)) done where
  returns := by
    rw [note_eq hi rfl, ← h.returns]
    exact List.append_nil _
  nodup := h.nodup
  steps := h.steps_note htold hi rfl
  died := h.died_step hi rfl <| by
    rw [hguard]
    exact nofun
  turn := by
    cases h.turn with
    | free guard none deeds => exact absurd (guard.symm.trans hguard) Bool.false_ne_true
    | held k phase begun guard call only underway deeds =>
      have hk : k ≠ i := by
        rintro rfl
        exact underway.holds.ne_waiting (Option.some.inj (call.symm.trans hi))
      refine .held k phase begun ?_ ?_ (fun j hj ↦ ?_) ?_ ?_
      · rw [step_eq hi, hguard]
        rfl
      · rw [getElem?_calls_step hi, if_neg hk, call]
      · by_cases heq : j = i
        · subst heq
          rw [holds_step_self hi, hguard] at hj
          exact absurd hj id
        · exact only j ((holds_step_of_ne hi heq).mp hj)
      · rw [stepsOf_note hi rfl, if_neg hk]
        exact underway
      · rw [note_eq hi rfl, deeds, hguard]
        exact List.append_nil _

/-- A call that finds the guard free begins a tick. -/
theorem Serial.begin (h : Serial a m s t done) (htold : Told m s t) {now : Instant}
    (hi : s.calls[i]? = some .waiting) (hguard : s.guarded = false) :
    Serial a m (s.step a (i, .enter now)) (s.note a t (i, .enter now)) done where
  returns := by
    rw [note_eq hi rfl, ← h.returns]
    exact List.append_nil _
  nodup := h.nodup
  steps := h.steps_note htold hi rfl
  died := h.died_step hi rfl <| by
    rw [hguard]
    exact nofun
  turn := by
    cases h.turn with
    | held k phase begun guard => exact absurd (hguard.symm.trans guard) Bool.false_ne_true
    | free guard none deeds =>
      have hbegun := Autoscaler.Underway.sampling (a := a) (m := a.after m (done.map Prod.snd))
        ⟨now, [], .error .aborted, now, []⟩
      refine .held i (.sampling now {}) a.queries ?_ ?_ (fun j hj ↦ ?_) ?_ ?_
      · rw [step_eq hi, hguard]
        rfl
      · rw [getElem?_calls_step hi, if_pos rfl, hguard]
        rfl
      · by_contra heq
        exact none j ((holds_step_of_ne hi heq).mp hj)
      · rw [stepsOf_note hi rfl, if_pos rfl, htold.waiting i hi]
        simpa [Autoscaler.sampling, Encounter.samplingSteps] using hbegun
      · rw [note_eq hi rfl, deeds, hguard]
        rfl

section Held

variable {begun : List (Deed R)} (h : Serial a m s t done) (htold : Told m s t)
  (hi : s.calls[i]? = some phase) (hfits : phase.fits step = true)
  (only : ∀ j, s.Holds j → j = i) (deeds : t.deeds = a.inTurn a.deeds m done ++ begun.map (i, ·))

include hi only in
theorem not_holds_of_ne (a : Autoscaler R) (step : Step) {j : Nat} (hj : j ≠ i) :
    ¬ (s.step a (i, step)).Holds j :=
  fun hholds ↦ hj (only j ((holds_step_of_ne hi hj).mp hholds))

include h htold hi hfits only deeds in
/-- A call that holds the guard goes on with its tick. -/
theorem Serial.proceed
    (hguard : (stepCall a s.guarded s.memory phase step).2.1 = true)
    (hnext : a.Underway (a.after m (done.map Prod.snd))
      (stepCall a s.guarded s.memory phase step).1 (t.stepsOf i ++ [step])
      (begun ++ stepDeeds a s.guarded s.memory phase step)) :
    Serial a m (s.step a (i, step)) (s.note a t (i, step)) done where
  returns := by
    have houtcome : phase.outcome? step = none :=
      Option.eq_none_iff_forall_ne_some.mpr fun report hreport ↦
        hnext.holds.ne_returned _ ((stepCall_eq_returned_iff hfits).mpr hreport)
    rw [note_eq hi hfits, houtcome, ← h.returns]
    exact List.append_nil _
  nodup := h.nodup
  steps := h.steps_note htold hi hfits
  died := h.died_step hi hfits hnext.holds.ne_died
  turn := by
    refine .held i (stepCall a s.guarded s.memory phase step).1
      (begun ++ stepDeeds a s.guarded s.memory phase step) ?_ ?_ ?_ ?_ ?_
    · rw [step_eq hi]
      exact hguard
    · rw [getElem?_calls_step hi, if_pos rfl]
    · exact fun j hj ↦ not_imp_not.mp (not_holds_of_ne hi only a step) hj
    · rw [stepsOf_note hi hfits, if_pos rfl]
      exact hnext
    · rw [note_eq hi hfits, deeds, List.map_append, List.append_assoc]

include h htold hi hfits only deeds in
/-- A call that holds the guard comes to its end. -/
theorem Serial.finish {e : Encounter}
    (hguard : (stepCall a s.guarded s.memory phase step).2.1 = false)
    (hover : ¬ (stepCall a s.guarded s.memory phase step).1.Holds)
    (hsteps : t.stepsOf i ++ [step] = e.steps a.strategy.scalingEnabled)
    (hdeeds : begun ++ stepDeeds a s.guarded s.memory phase step =
      a.deeds (a.after m (done.map Prod.snd)) e)
    (houtcome : phase.outcome? step = a.returned? (a.after m (done.map Prod.snd)) e)
    (hdied : (stepCall a s.guarded s.memory phase step).1 = .died ↔
      e.dies a.strategy.scalingEnabled = true) :
    Serial a m (s.step a (i, step)) (s.note a t (i, step)) (done ++ [(i, e)]) where
  returns := by
    rw [note_eq hi hfits, h.returns, houtcome, Autoscaler.reportsInTurn,
      Autoscaler.reportsInTurn, Autoscaler.inTurn_append]
  nodup := by
    have hfresh := h.fresh htold hi hfits
    rw [List.map_append]
    exact h.nodup.append (List.nodup_singleton i) (by simpa using hfresh)
  steps j e' hmem := by
    rcases List.mem_append.mp hmem with hmem | hmem
    · exact h.steps_note htold hi hfits j e' hmem
    · obtain ⟨rfl, rfl⟩ := Prod.mk.inj (List.mem_singleton.mp hmem)
      rw [stepsOf_note hi hfits, if_pos rfl, hsteps]
  died j := by
    rw [getElem?_calls_step hi]
    by_cases hj : j = i
    · subst hj
      have hfresh (e' : Encounter) : (j, e') ∉ done :=
        fun hmem ↦ h.fresh htold hi hfits (List.mem_map_of_mem hmem)
      rw [if_pos rfl, Option.some.injEq, hdied]
      simp [hfresh]
    · rw [if_neg hj, h.died]
      simp [hj]
  turn := by
    refine .free ?_ (fun j hj ↦ ?_) ?_
    · rw [step_eq hi]
      exact hguard
    · by_cases heq : j = i
      · subst heq
        exact hover ((holds_step_self hi).mp hj)
      · exact not_holds_of_ne hi only a step heq hj
    · rw [note_eq hi hfits, deeds, List.append_assoc, ← List.map_append, hdeeds,
        Autoscaler.inTurn_append]

end Held

/-- **A step of a call that holds the guard.** -/
theorem Serial.step_of_holds (h : Serial a m s t done) (htold : Told m s t)
    (hi : s.calls[i]? = some phase) (hfits : phase.fits step = true) (hholds : phase.Holds) :
    ∃ done', Serial a m (s.step a (i, step)) (s.note a t (i, step)) done' := by
  cases h.turn with
  | free guard none deeds => exact absurd ⟨phase, hi, hholds⟩ (none i)
  | held k phase' begun guard call only underway deeds =>
    obtain rfl := only i ⟨phase, hi, hholds⟩
    obtain rfl := Option.some.inj (hi.symm.trans call)
    rcases underway.step guard (htold.memory_eq deeds) hfits with
      ⟨hguard, hnext⟩ | ⟨hguard, hover, e, hsteps, hdeeds, houtcome, hdied⟩
    · exact ⟨done, h.proceed htold hi hfits only deeds hguard hnext⟩
    · exact ⟨done ++ [(i, e)],
        h.finish htold hi hfits only deeds hguard hover hsteps hdeeds houtcome hdied⟩

/-- **One step of one call.** -/
theorem Serial.step_note (h : Serial a m s t done) (htold : Told m s t)
    (hi : s.calls[i]? = some phase) (hfits : phase.fits step = true) :
    ∃ done', Serial a m (s.step a (i, step)) (s.note a t (i, step)) done' := by
  rcases stepCall_cases a s.guarded s.memory hfits with
    ⟨now, rfl, rfl⟩ | ⟨hholds, -⟩ | ⟨r, rfl, rfl⟩ | ⟨_, _, _, rfl, rfl⟩
  · cases hguard : s.guarded with
    | true => exact ⟨done, h.skip htold hi hguard⟩
    | false => exact ⟨done, h.begin htold hi hguard⟩
  · exact h.step_of_holds htold hi hfits hholds
  · exact h.step_of_holds htold hi hfits trivial
  · exact h.step_of_holds htold hi hfits trivial

/-- **What is told of a run** is true at every moment, and makes it a run of ticks in turn. -/
theorem serial_run (a : Autoscaler R) (m : Memory R) (n : Nat) (events : List (Nat × Step)) :
    Told m ((idle m n).run a events) ((idle m n).trace a events) ∧
      ∃ done, Serial a m ((idle m n).run a events) ((idle m n).trace a events) done := by
  induction events using List.reverseRecOn with
  | nil => exact ⟨told_idle m n, [], serial_idle m n⟩
  | append_singleton events event ih =>
    obtain ⟨htold, done, hserial⟩ := ih
    obtain ⟨i, step⟩ := event
    rw [run_append, trace_append]
    by_cases hfits : ∃ phase, ((idle m n).run a events).calls[i]? = some phase ∧
        phase.fits step = true
    · obtain ⟨phase, hi, hfits⟩ := hfits
      exact ⟨htold.step_note hi hfits, hserial.step_note htold hi hfits⟩
    · obtain ⟨hstep, hnote⟩ := step_note_eq_self (t := (idle m n).trace a events)
        fun phase hi ↦ Bool.eq_false_of_not_eq_true fun h ↦ hfits ⟨phase, hi, h⟩
      rw [hstep, hnote]
      exact ⟨htold, done, hserial⟩

/-- The guard is held exactly if it is the turn of a call. -/
theorem Turn.guarded_iff (h : Turn a m s t done) : s.guarded = true ↔ ∃ i, s.Holds i := by
  cases h with
  | free guard none deeds =>
    rw [guard]
    exact iff_of_false Bool.false_ne_true fun ⟨i, hi⟩ ↦ none i hi
  | held i phase begun guard call only underway deeds =>
    exact iff_of_true guard ⟨i, phase, call, underway.holds⟩

/-- While it is nobody's turn, the deeds are those of the ticks. -/
theorem Serial.deeds_of_free (h : Serial a m s t done) (hfree : s.guarded = false) :
    t.deeds = a.inTurn a.deeds m done := by
  cases h.turn with
  | free guard none deeds => exact deeds
  | held i phase begun guard => exact absurd (hfree.symm.trans guard) Bool.false_ne_true

/-- So what is shared is what the ticks have left behind. -/
theorem Serial.memory_of_free (h : Serial a m s t done) (htold : Told m s t)
    (hfree : s.guarded = false) : s.memory = a.after m (done.map Prod.snd) := by
  rw [htold.memory, h.deeds_of_free hfree, Autoscaler.foldl_apply_inTurn]

/-- **Ticks never interleave.** Let any number of calls of one autoscaler take their steps in any
order. At every moment
* at most one call is between taking and releasing the guard, and one is if the guard is held;
* a call that looks at the guard while it is held goes back without a report and changes nothing
  else, and a call that has gone back without a report has done nothing at all;
* the reports in the order of their return are those of a sequence of ticks, one after the other,
  each of which has met what its call has met, and if the guard is free, the last one is published;
* the calls that have died are those whose tick in this sequence dies;
* the deeds of all calls in their order are those of these ticks, one after the other, and if the
  guard is free, what is shared is what these ticks leave behind. The call that holds the guard has
  done the beginning of what some tick does next. -/
theorem ticks_in_turn (a : Autoscaler R) (m : Memory R) (n : Nat) (events : List (Nat × Step)) :
    let s := (idle m n).run a events
    let t := (idle m n).trace a events
    ((∀ i j, s.Holds i → s.Holds j → i = j) ∧ (s.guarded = true ↔ ∃ i, s.Holds i)) ∧
    ((∀ i now, s.guarded = true → s.calls[i]? = some .waiting →
        s.step a (i, .enter now) = { s with calls := s.calls.set i (.returned none) }) ∧
      ∀ i, s.calls[i]? = some (.returned none) → ∀ d ∈ t.deeds, d.1 ≠ i) ∧
    (∀ i report, s.calls[i]? = some (.returned (some report)) ↔ (i, report) ∈ t.returns) ∧
    (s.guarded = false →
      s.memory.lastReport = (t.returns.getLast?.map Prod.snd).or m.lastReport) ∧
    ∃ done : List (Nat × Encounter), (done.map Prod.fst).Nodup ∧
      (∀ i e, (i, e) ∈ done → t.stepsOf i = e.steps a.strategy.scalingEnabled) ∧
      t.returns = a.reportsInTurn m done ∧
      (∀ i, s.calls[i]? = some .died ↔
        ∃ e, (i, e) ∈ done ∧ e.dies a.strategy.scalingEnabled = true) ∧
      (s.guarded = false →
        t.deeds = a.inTurn a.deeds m done ∧ s.memory = a.after m (done.map Prod.snd)) ∧
      ∀ i, s.Holds i → ∃ e begun, begun <+: a.deeds (a.after m (done.map Prod.snd)) e ∧
        t.deeds = a.inTurn a.deeds m done ++ begun.map (i, ·) := by
  obtain ⟨htold, done, hserial⟩ := serial_run a m n events
  refine ⟨⟨fun i j hi hj ↦ ?_, hserial.turn.guarded_iff⟩, ⟨fun i now hguard hi ↦ ?_, fun i hi ↦
    htold.inactive i (.inr hi)⟩, htold.returned, fun hguard ↦ ?_, done, hserial.nodup,
    hserial.steps, hserial.returns, hserial.died, fun hguard ↦
    ⟨hserial.deeds_of_free hguard, hserial.memory_of_free htold hguard⟩, fun i hi ↦ ?_⟩
  · cases hserial.turn with
    | free guard none => exact absurd hi (none i)
    | held k phase begun guard call only => rw [only i hi, only j hj]
  · rw [step_eq hi, hguard]
    rfl
  · rw [hserial.memory_of_free htold hguard, hserial.returns, Autoscaler.lastReport_after]
  · cases hserial.turn with
    | free guard none => exact absurd hi (none i)
    | held k phase begun guard call only underway deeds =>
      obtain rfl := only i hi
      obtain ⟨e, hprefix⟩ := underway.exists_prefix
      exact ⟨e, begun, hprefix, deeds⟩

end System

end QueueScaler
