import QueueScaler.Proofs.Scaling.Commanding
/-!
# What a tick does

A tick asks for depths, for the listing and for new replica counts, and it writes to the gauges, to
the history and to the last report. All of these deeds in their order make up its course. What a
tick leaves behind is the effect of its deeds.

## Main definitions

* `Deed`: a call to the outside, or a write to what outlives a tick; `Deed.apply` is its effect.
* `Deed.ofSample`, `Deed.ofCommand`: the deeds upon the outcome of a depth query and of a command.
* `Autoscaler.deeds`: the deeds of a whole tick.
* `Autoscaler.inTurn`: what ticks do, one after the other.

## Main results

* `Autoscaler.foldl_apply_deeds`, `Autoscaler.foldl_apply_inTurn`: the effect of the deeds of a
  tick, and of ticks in turn, is what they leave behind.
-/

namespace QueueScaler

variable {R : Type}

/-- Entries without the number that all of them were given. -/
theorem map_snd_numbered {α : Type} (i : Nat) (l : List α) : (l.map (i, ·)).map Prod.snd = l := by
  rw [List.map_map]
  exact List.map_id l

/-- A call to the outside, or a write to what outlives a tick. -/
inductive Deed (R : Type) where
  /-- Asks for the depth of a queue. -/
  | query (queue : String)
  /-- Sets a gauge. -/
  | gauge (queue : String) (depth : Nat) (moment : Instant)
  /-- Asks for the replicas of the deployments. -/
  | list
  /-- Commands a replica count. -/
  | command (service : String) (replicas : Nat)
  /-- Records a scale-up. -/
  | record (service : String) (moment : Instant)
  /-- Publishes a report. -/
  | publish (report : Report R)

namespace Deed

/-- The effect of a deed on what outlives a tick. -/
def apply (m : Memory R) : Deed R → Memory R
  | .query _ => m
  | .gauge queue depth moment => { m with gauges := m.gauges.set queue depth moment }
  | .list => m
  | .command _ _ => m
  | .record service moment => { m with history := m.history.record service moment }
  | .publish report => { m with lastReport := some report }

/-- What is done upon the outcome of a depth query. -/
def ofSample (c : Arrival Nat) : List (Deed R) :=
  match c.answer with
  | .ok depth => [.gauge c.name depth c.moment]
  | .error _ => []

/-- What is done upon the outcome of a command, given what was decided. -/
def ofCommand (decisions : Table Decision) (c : Arrival Unit) : List (Deed R) :=
  match decisions.get? c.name, c.answer with
  | some (.scaleUp ..), .ok () => [.record c.name c.moment]
  | _, _ => []

/-- The commands that a report amounts to. -/
def commands (r : Report R) : List (Deed R) := r.commands.map fun (service, n) ↦ .command service n

/-! ### Effects -/

theorem foldl_apply_eq_self {deeds : List (Deed R)} (h : ∀ m, ∀ d ∈ deeds, apply m d = m)
    (m : Memory R) : deeds.foldl apply m = m := by
  induction deeds with
  | nil => rfl
  | cons d deeds ih =>
    rw [List.foldl_cons, h m d List.mem_cons_self]
    exact ih fun m d hd ↦ h m d (List.mem_cons_of_mem _ hd)

theorem foldl_apply_commands (m : Memory R) (r : Report R) : (commands r).foldl apply m = m := by
  refine foldl_apply_eq_self (fun m d hd ↦ ?_) m
  obtain ⟨_, -, rfl⟩ := List.mem_map.mp hd
  rfl

theorem foldl_apply_ofSample (m : Memory R) (c : Arrival Nat) :
    (ofSample c).foldl apply m = { m with gauges := m.gauges.note c } := by
  obtain ⟨name, answer, moment⟩ := c
  cases answer <;> rfl

theorem foldl_apply_sampled (m : Memory R) (samples : List (Arrival Nat)) :
    (samples.flatMap ofSample).foldl apply m =
      { m with gauges := samples.foldl Gauges.note m.gauges } := by
  induction samples generalizing m with
  | nil => rfl
  | cons c samples ih =>
    rw [List.flatMap_cons, List.foldl_append, foldl_apply_ofSample, ih]
    rfl

theorem foldl_apply_ofCommand (m : Memory R) (r : Report R) (c : Arrival Unit) :
    (ofCommand r.decisions c).foldl apply m =
      { m with history := (r.acknowledge m.history c).2 } := by
  obtain ⟨name, answer, moment⟩ := c
  rw [ofCommand, Report.acknowledge]
  rcases r.decisions.get? name with _ | (_ | _ | _ | _)
  · rfl
  · rcases answer with (_ | _ | _) | ⟨⟩ <;> rfl
  · rcases answer with (_ | _ | _) | ⟨⟩ <;> rfl
  · rfl
  · rfl

theorem foldl_apply_answered (m : Memory R) (r : Report R) (commands : List (Arrival Unit)) :
    (commands.flatMap (ofCommand r.decisions)).foldl apply m =
      { m with history :=
          (commands.foldl (fun (r, h) c ↦ r.acknowledge h c) (r, m.history)).2 } := by
  induction commands generalizing m r with
  | nil => rfl
  | cons c commands ih =>
    rw [List.flatMap_cons, List.foldl_append, foldl_apply_ofCommand,
      ← r.decisions_acknowledge m.history c, ih]
    rfl

theorem foldl_apply_publish (m : Memory R) (r : Option (Report R)) :
    (r.toList.map Deed.publish).foldl apply m = { m with lastReport := r.or m.lastReport } := by
  cases r <;> rfl

end Deed

namespace Autoscaler

variable [Rate R] (a : Autoscaler R)

/-- The depth queries of a tick, one for each managed queue. -/
def queries : List (Deed R) := a.pipeline.wiring.keys.map .query

/-- The deeds of a tick while it samples. -/
def sampling (e : Encounter) : List (Deed R) := a.queries ++ e.samples.flatMap Deed.ofSample

/-- The deeds of a tick before it publishes its report. With scaling disabled it does not ask for
the listing. -/
def unpublished (m : Memory R) (e : Encounter) : List (Deed R) :=
  a.sampling e ++ (if a.strategy.scalingEnabled then [.list] else []) ++
    Deed.commands (a.decisions m e) ++
    e.commands.flatMap (Deed.ofCommand (a.decisions m e).decisions)

/-- The deeds of a whole tick. One that dies publishes nothing. -/
def deeds (m : Memory R) (e : Encounter) : List (Deed R) :=
  a.unpublished m e ++ (a.returned? m e).toList.map .publish

theorem foldl_apply_queries (m : Memory R) : a.queries.foldl Deed.apply m = m := by
  refine Deed.foldl_apply_eq_self (fun m d hd ↦ ?_) m
  obtain ⟨_, -, rfl⟩ := List.mem_map.mp hd
  rfl

theorem foldl_apply_sampling (m : Memory R) (e : Encounter) :
    (a.sampling e).foldl Deed.apply m =
      { m with gauges := e.samples.foldl Gauges.note m.gauges } := by
  rw [sampling, List.foldl_append, foldl_apply_queries, Deed.foldl_apply_sampled]

theorem foldl_apply_unpublished (m : Memory R) (e : Encounter) :
    (a.unpublished m e).foldl Deed.apply m =
      { (a.tick m e).2 with lastReport := m.lastReport } := by
  have hlist (m : Memory R) :
      (if a.strategy.scalingEnabled then [.list] else []).foldl Deed.apply m = m := by
    split <;> rfl
  simp only [unpublished, List.foldl_append, foldl_apply_sampling, hlist,
    Deed.foldl_apply_commands, Deed.foldl_apply_answered]
  rfl

/-- **The effect of the deeds of a tick is what it leaves behind.** -/
theorem foldl_apply_deeds (m : Memory R) (e : Encounter) :
    (a.deeds m e).foldl Deed.apply m = (a.tick m e).2 := by
  rw [deeds, List.foldl_append, foldl_apply_unpublished, Deed.foldl_apply_publish,
    ← lastReport_tick]

/-- With scaling disabled, and without a listing, nothing is commanded. -/
theorem commands_decisions_eq_nil {m : Memory R} {e : Encounter}
    (h : a.strategy.scalingEnabled = false ∨ ∃ failure, e.listing = .error failure) :
    Deed.commands (a.decisions m e) = [] := by
  rw [Deed.commands, ← commands_tick, commands_tick_eq_nil h]
  rfl

/-- The last deed of a tick that dies is to ask for the listing. -/
theorem deeds_of_dies {m : Memory R} {e : Encounter}
    (h : e.dies a.strategy.scalingEnabled = true) : a.deeds m e = a.sampling e ++ [.list] := by
  obtain ⟨hon, hlisting⟩ := Encounter.dies_iff.mp h
  have hanswered : e.commands.flatMap (Deed.ofCommand (a.decisions m e).decisions) =
      ([] : List (Deed R)) := by
    rw [← decisions_tick, (a.tick_of_dies m h).1]
    exact List.flatMap_eq_nil_iff.mpr fun c _ ↦ rfl
  rw [deeds, unpublished, if_pos hon, a.commands_decisions_eq_nil (.inr ⟨_, hlisting⟩), hanswered,
    returned?, if_pos h]
  simp

/-! ### Ticks in turn -/

/-- What ticks do, one after the other, with the numbers of their calls. -/
def inTurn {α : Type} (f : Memory R → Encounter → List α) (m : Memory R) :
    List (Nat × Encounter) → List (Nat × α)
  | [] => []
  | (i, e) :: rest => (f m e).map (i, ·) ++ inTurn f (a.tick m e).2 rest

section InTurn

variable {α : Type} {a : Autoscaler R}

theorem inTurn_append (f : Memory R → Encounter → List α) (m : Memory R)
    (done : List (Nat × Encounter)) (i : Nat) (e : Encounter) :
    a.inTurn f m (done ++ [(i, e)]) =
      a.inTurn f m done ++ (f (a.after m (done.map Prod.snd)) e).map (i, ·) := by
  induction done generalizing m with
  | nil => simp [inTurn, after]
  | cons d done ih =>
    obtain ⟨j, d⟩ := d
    simp only [List.cons_append, inTurn, ih, List.append_assoc]
    rfl

/-- The reports that ticks return, one after the other. -/
def reportsInTurn (a : Autoscaler R) (m : Memory R) (done : List (Nat × Encounter)) :
    List (Nat × Report R) :=
  a.inTurn (fun m e ↦ (a.returned? m e).toList) m done

/-- Every tick that does not die returns a report. -/
theorem exists_mem_reportsInTurn {i : Nat} {e : Encounter} {done : List (Nat × Encounter)}
    (m : Memory R) (hmem : (i, e) ∈ done) (hlives : e.dies a.strategy.scalingEnabled = false) :
    ∃ r, (i, r) ∈ a.reportsInTurn m done := by
  induction done generalizing m with
  | nil => exact absurd hmem List.not_mem_nil
  | cons d done ih =>
    rcases List.mem_cons.mp hmem with rfl | hmem
    · refine ⟨(a.tick m e).1, List.mem_append_left _ ?_⟩
      exact List.mem_map_of_mem (Option.mem_toList.mpr (returned?_of_lives hlives))
    · obtain ⟨r, hr⟩ := ih (a.tick m d.2).2 hmem
      exact ⟨r, List.mem_append_right _ hr⟩

theorem foldl_apply_inTurn (m : Memory R) (done : List (Nat × Encounter)) :
    ((a.inTurn a.deeds m done).map Prod.snd).foldl Deed.apply m =
      a.after m (done.map Prod.snd) := by
  induction done generalizing m with
  | nil => rfl
  | cons d done ih =>
    rw [inTurn, List.map_append, List.foldl_append, map_snd_numbered, foldl_apply_deeds, ih]
    rfl

/-- The last report is that of the last tick that returned one. -/
theorem lastReport_after (m : Memory R) (done : List (Nat × Encounter)) :
    (a.after m (done.map Prod.snd)).lastReport =
      ((a.reportsInTurn m done).getLast?.map Prod.snd).or m.lastReport := by
  induction done using List.reverseRecOn with
  | nil => rfl
  | append_singleton done d ih =>
    obtain ⟨i, e⟩ := d
    have hafter : a.after m ((done ++ [(i, e)]).map Prod.snd) =
        (a.tick (a.after m (done.map Prod.snd)) e).2 := by
      rw [List.map_append, after, List.foldl_append]
      rfl
    rw [hafter, lastReport_tick, ih, reportsInTurn, reportsInTurn, inTurn_append]
    cases a.returned? (a.after m (done.map Prod.snd)) e with
    | none =>
      rw [Option.none_or, Option.toList_none, List.map_nil, List.append_nil]
    | some r =>
      rw [Option.toList_some, List.map_singleton, List.getLast?_concat]
      rfl

end InTurn

end Autoscaler

end QueueScaler
