import QueueScaler.Proofs.Scaling.Sampling
/-!
# What a tick decides

A service gets a decision exactly when scaling is enabled, the replicas could be listed, the service
is among them, a rate of one of its queues is known, and it is not blind. The decision depends on
what it has, what it needs and when it was last scaled up.

## Main definitions

* `Autoscaler.required?`: the replicas that a service needs, as far as some sampled depths tell.
* `Autoscaler.decision?`: the decision that a requirement leads to.
* `Autoscaler.outlook`: the report of a tick that can tell the demand but has not decided yet.

## Main results

* `Autoscaler.required?_congr`: the depths of the queues that feed a service decide on its need.
* `Autoscaler.exists_assess`, `Autoscaler.exists_report`: with scaling enabled, a tick can tell the
  demand.
* `Autoscaler.get?_demand_assess`: the demand that a tick reports.
* `Autoscaler.decisions_assess_eq_some`: the decisions of a tick.
-/

namespace QueueScaler.Autoscaler

variable {R : Type} [Rate R] {a : Autoscaler R} {s : String} {d : Decision} {now startedAt : Instant}
  {history : History} {sample : Sample} {listing : Answer (Table Nat)}

/-- The replicas that a service needs, as far as the sampled depths tell. -/
def required? (a : Autoscaler R) (depths : Table Nat) (service : String) : Option Nat :=
  (a.pipeline.wiring.needs service (a.plan depths).total).max?

/-- The need of a service depends on the depths of the queues that feed it. -/
theorem required?_congr {depths depths' : Table Nat}
    (h : ∀ q, a.pipeline.wiring.Feeds a.strategy.followUpEnabled q s →
      depths.get? q = depths'.get? q) :
    a.required? depths s = a.required? depths' s :=
  congrArg List.max? (Wiring.needs_plan_congr a.pipeline.acyclic h)

/-- What a service needs is what one of its queues calls for. -/
theorem exists_input_of_required? {depths : Table Nat} {required : Nat}
    (h : a.required? depths s = some required) :
    ∃ q b x, a.pipeline.wiring.input? s q = some b ∧ (a.plan depths).total.get? q = some x ∧
      required = replicasFor b.consumptionRate x := by
  obtain ⟨q, x, b, hx, hb, hn⟩ := Wiring.mem_needs_iff.mp (List.max?_eq_some_iff.mp h).1
  exact ⟨q, b, x, hb, hx, hn.symm⟩

/-- A service needs at least what any of its queues calls for. -/
theorem exists_required?_ge {depths : Table Nat} {q : String} {b : Binding R} {x : R}
    (hb : a.pipeline.wiring.input? s q = some b) (hx : (a.plan depths).total.get? q = some x) :
    ∃ required, a.required? depths s = some required ∧
      replicasFor b.consumptionRate x ≤ required := by
  have hmem := Wiring.mem_needs hb hx
  obtain ⟨required, hrequired⟩ := Option.isSome_iff_exists.mp (List.isSome_max?_of_mem hmem)
  exact ⟨required, hrequired, (List.max?_eq_some_iff.mp hrequired).2 _ hmem⟩

/-- As soon as one queue of a service was sampled, the need of the service can be told. -/
theorem exists_required? {depths : Table Nat} {q : String}
    (hq : (a.pipeline.wiring.input? s q).isSome) (hd : q ∈ depths) :
    ∃ required, a.required? depths s = some required := by
  obtain ⟨b, hb⟩ := Option.isSome_iff_exists.mp hq
  have horigin : q ∈ a.origins depths :=
    Wiring.mem_originRates.mpr ⟨Wiring.mem_consumed_of_input? hq, hd⟩
  have htotal : q ∈ (a.plan depths).total :=
    (Wiring.mem_plan_total a.pipeline.acyclic).mpr (.inl horigin)
  obtain ⟨x, hx⟩ := Table.mem_iff_get?.mp htotal
  obtain ⟨required, hrequired, -⟩ := exists_required?_ge hb hx
  exact ⟨required, hrequired⟩

/-- Only a service of the pipeline needs anything. -/
theorem mem_services_of_required? {depths : Table Nat} {required : Nat}
    (h : a.required? depths s = some required) : s ∈ a.pipeline.wiring.services := by
  obtain ⟨q, b, -, hb, -⟩ := exists_input_of_required? h
  exact Wiring.mem_services.mpr ⟨q, Option.isSome_iff_exists.mpr ⟨b, hb⟩⟩

/-- The decision that a requirement leads to, unless the service is blind or not listed. -/
def decision? (a : Autoscaler R) (history : History) (now : Instant) (blind : NameSet)
    (listed : Table Nat) (service : String) (required : Nat) : Option Decision :=
  if service ∈ blind then none
  else (listed.get? service).map fun current ↦
    Decision.choose current required a.strategy.maxReplicas (history.since? service now)
      (Span.ofSeconds a.strategy.stabilizationSeconds)

theorem decision?_eq_some {blind : NameSet} {listed : Table Nat} {required : Nat} :
    a.decision? history now blind listed s required = some d ↔
      s ∉ blind ∧ ∃ current, listed.get? s = some current ∧
        Decision.choose current required a.strategy.maxReplicas (history.since? s now)
          (Span.ofSeconds a.strategy.stabilizationSeconds) = d := by
  rw [decision?]
  split
  · rename_i h
    simp [h]
  · rename_i h
    rw [Option.map_eq_some_iff, and_iff_right h]

/-! ### One requirement after the other -/

/-- Deciding on a service touches the decisions and the services left out, nothing else. -/
theorem exists_decideService (a : Autoscaler R) (history : History) (now : Instant)
    (blind : NameSet) (r : Report R) (service : String) (required : Nat) :
    ∃ decisions skipped, a.decideService history now blind r service required =
      { r with decisions, skipped } := by
  rw [decideService]
  split
  · exact ⟨r.decisions, r.skipped, rfl⟩
  · split
    · exact ⟨r.decisions, _, rfl⟩
    · exact ⟨_, r.skipped, rfl⟩

theorem exists_foldl_decideService (a : Autoscaler R) (history : History) (now : Instant)
    (blind : NameSet) (l : List (String × Nat)) (r : Report R) :
    ∃ decisions skipped,
      l.foldl (fun r e ↦ a.decideService history now blind r e.1 e.2) r =
        { r with decisions, skipped } := by
  induction l generalizing r with
  | nil => exact ⟨r.decisions, r.skipped, rfl⟩
  | cons e l ih =>
    obtain ⟨_, _, hstep⟩ := a.exists_decideService history now blind r e.1 e.2
    rw [List.foldl_cons, hstep]
    exact ih _

/-- The decision on a service comes from its own entry of the demand. -/
theorem get?_decisions_fold_decideService (a : Autoscaler R) (history : History) (now : Instant)
    (blind : NameSet) (demand : Table Nat) (r : Report R) (s : String) :
    (demand.fold (a.decideService history now blind) r).decisions.get? s =
      ((demand.get? s).bind (a.decision? history now blind r.currentReplicas s)).or
        (r.decisions.get? s) := by
  -- What is listed stays as it is, but every step reads it, so it is part of the view.
  have h := Table.view_fold (fun r : Report R ↦ (r.decisions.get? s, r.currentReplicas))
    (f := a.decideService history now blind)
    (g := fun required v ↦ ((a.decision? history now blind v.2 s required).or v.1, v.2))
    (fun r service required (hne : service ≠ s) ↦ ?_) (fun r required ↦ ?_) demand r
  · refine (congrArg Prod.fst h).trans ?_
    cases demand.get? s <;> rfl
  · rw [decideService]
    split
    · rfl
    · split
      · rfl
      · exact Prod.ext ((Table.get?_insert ..).trans (if_neg (Ne.symm hne))) rfl
  · rw [decideService, decision?]
    split
    · rfl
    · split
      · rename_i hlisted
        rw [hlisted]
        rfl
      · rename_i current hlisted
        rw [hlisted]
        exact Prod.ext (Table.get?_insert_self ..) rfl

/-! ### The report -/

/-- The report of a tick that can tell the demand but has not decided anything. -/
def outlook (a : Autoscaler R) (startedAt : Instant) (sample : Sample) (demand : Table Nat) :
    Report R :=
  { a.survey startedAt sample with
    demand, skipped := (a.blindServices sample.failed).map fun _ _ ↦ .inputUnknown }

/-- With scaling enabled, a tick can tell the demand, and decides on it if it has a listing. -/
theorem exists_assess (hon : a.strategy.scalingEnabled = true) (startedAt : Instant)
    (sample : Sample) (listing : Answer (Table Nat)) (history : History) (now : Instant) :
    ∃ demand : Table Nat, (∀ s, demand.get? s = a.required? sample.depths s) ∧
      a.assess startedAt sample listing history now =
        match listing with
        | .error _ => a.outlook startedAt sample demand
        | .ok counts => demand.fold
            (a.decideService history now (a.blindServices sample.failed))
            { a.outlook startedAt sample demand with currentReplicas := counts } := by
  obtain ⟨demand, hdemand, hget⟩ :=
    a.pipeline.wiring.exists_demand (a.plan sample.depths).total
  have hplan : (a.plan sample.depths).demand = .ok demand := hdemand
  refine ⟨demand, hget, ?_⟩
  refine (if_neg (not_not_intro hon)).trans ?_
  split
  · rename_i h
    cases hplan.symm.trans h
  · rename_i h
    obtain rfl := Except.ok.inj (hplan.symm.trans h)
    rfl

/-- The report of such a tick is its outlook, but for the replicas it lists, the decisions on them
and the services left out. -/
theorem exists_report (hon : a.strategy.scalingEnabled = true) (startedAt : Instant)
    (sample : Sample) (listing : Answer (Table Nat)) (history : History) (now : Instant) :
    ∃ (demand currentReplicas : Table Nat) (decisions : Table Decision)
      (skipped : Table SkipReason),
      (∀ s, demand.get? s = a.required? sample.depths s) ∧
      (∀ counts, listing = .ok counts → currentReplicas = counts) ∧
      a.assess startedAt sample listing history now =
        { a.outlook startedAt sample demand with currentReplicas, decisions, skipped } := by
  obtain ⟨demand, hdemand, hassess⟩ := exists_assess hon startedAt sample listing history now
  rcases listing with failure | counts
  · exact ⟨demand, ∅, ∅, _, hdemand, nofun, hassess⟩
  · obtain ⟨decisions, skipped, hfold⟩ := a.exists_foldl_decideService history now
      (a.blindServices sample.failed) demand.entries
      { a.outlook startedAt sample demand with currentReplicas := counts }
    exact ⟨demand, counts, decisions, skipped, hdemand, fun _ h ↦ Except.ok.inj h,
      hassess.trans hfold⟩

/-- With scaling enabled and a listing, the decisions are made for what was listed and needed. -/
theorem assess_ok (hon : a.strategy.scalingEnabled = true) (startedAt : Instant)
    (sample : Sample) (counts : Table Nat) (history : History) (now : Instant) :
    let report := a.assess startedAt sample (.ok counts) history now
    report.currentReplicas = counts ∧ ∀ s, report.demand.get? s = a.required? sample.depths s := by
  obtain ⟨demand, _, _, _, hdemand, hcounts, hreport⟩ :=
    exists_report hon startedAt sample (.ok counts) history now
  rw [hreport]
  exact ⟨hcounts counts rfl, hdemand⟩

/-- **The demand that a tick reports.** -/
theorem get?_demand_assess (a : Autoscaler R) (startedAt : Instant) (sample : Sample)
    (listing : Answer (Table Nat)) (history : History) (now : Instant) (s : String) :
    (a.assess startedAt sample listing history now).demand.get? s =
      if a.strategy.scalingEnabled then a.required? sample.depths s else none := by
  by_cases hon : a.strategy.scalingEnabled = true
  · obtain ⟨demand, _, _, _, hdemand, -, hreport⟩ :=
      exists_report hon startedAt sample listing history now
    rw [if_pos hon, hreport]
    exact hdemand s
  · rw [if_neg hon, assess, if_pos hon]
    rfl

/-- **The decisions of a tick.** -/
theorem decisions_assess_eq_some :
    (a.assess startedAt sample listing history now).decisions.get? s = some d ↔
      a.strategy.scalingEnabled = true ∧ s ∉ a.blindServices sample.failed ∧
        ∃ counts current required, listing = .ok counts ∧ counts.get? s = some current ∧
          a.required? sample.depths s = some required ∧
          Decision.choose current required a.strategy.maxReplicas (history.since? s now)
            (Span.ofSeconds a.strategy.stabilizationSeconds) = d := by
  by_cases hon : a.strategy.scalingEnabled = true
  · obtain ⟨demand, hdemand, hassess⟩ := exists_assess hon startedAt sample listing history now
    have hnone : (a.outlook startedAt sample demand).decisions = ∅ := rfl
    rw [hassess, and_iff_right hon]
    rcases listing with _ | counts
    · simp [hnone]
    · simp only [get?_decisions_fold_decideService, hnone, Table.get?_empty, Option.or_none,
        Option.bind_eq_some_iff, hdemand, decision?_eq_some, Except.ok.injEq]
      constructor
      · rintro ⟨required, hrequired, hseen, current, hcurrent, hd⟩
        exact ⟨hseen, counts, current, required, rfl, hcurrent, hrequired, hd⟩
      · rintro ⟨hseen, _, current, required, rfl, hcurrent, hrequired, hd⟩
        exact ⟨required, hrequired, hseen, current, hcurrent, hd⟩
  · rw [assess, if_pos hon]
    simp [hon]

end QueueScaler.Autoscaler
