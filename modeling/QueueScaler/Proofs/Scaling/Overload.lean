import QueueScaler.Proofs.Arithmetic.Saturation
import QueueScaler.Proofs.Scaling.Accounting
/-!
# What overload comes to

A tick plans in binary64 arithmetic, in which depths times rates may grow past all bounds. Such a
rate calls for the largest replica count, unless it meets a production edge of rate zero: the share
of that edge is no number, and neither is any rate downstream of it, so that these queues call for
nothing however full they are.

## Main definitions

* `Autoscaler.ofConfig`: the autoscaler of a configuration.
* `Autoscaler.Obscured`: the queues downstream of an edge of rate zero with an unbounded inflow.
* `Config.dryRelay`, `Autoscaler.flood`: a relay that passes nothing on, and more than it can take.

## Main results

* `Autoscaler.rates_tick`: the rates that a tick reports.
* `Autoscaler.isNaN_origin`, `Autoscaler.isNaN_followUp_iff`, `Autoscaler.isNaN_total_iff`: which of
  them are no number.
* `Autoscaler.required?_of_unbounded`, `Autoscaler.required?_of_isNaN`: what a service then needs.
* `Autoscaler.overload_demand`: what overload comes to in a tick.
-/

namespace QueueScaler

/-! ### What a tick reports -/

namespace Autoscaler

section Tick

variable {R : Type} [Rate R]

/-- The rates of a report come from its sample, if scaling is enabled. -/
theorem rates_assess (a : Autoscaler R) (hon : a.strategy.scalingEnabled = true)
    (startedAt : Instant) (sample : Sample) (listing : Answer (Table Nat)) (history : History)
    (now : Instant) :
    let r := a.assess startedAt sample listing history now
    r.originRates = a.origins sample.depths ∧ r.followUpRates = (a.plan sample.depths).followUp ∧
      r.totalRates = (a.plan sample.depths).total := by
  intro r
  obtain ⟨_, _, _, _, -, -, hreport⟩ := exists_report hon startedAt sample listing history now
  have hr : r = _ := hreport
  rw [hr]
  exact ⟨rfl, rfl, rfl⟩

/-- With scaling enabled a tick reports the rates of the depths it reports. -/
theorem rates_tick (a : Autoscaler R) (hon : a.strategy.scalingEnabled = true) (m : Memory R)
    (e : Encounter) :
    let r := (a.tick m e).1
    r.originRates = a.origins r.depths ∧ r.followUpRates = (a.plan r.depths).followUp ∧
      r.totalRates = (a.plan r.depths).total := by
  intro r
  obtain ⟨_, _, htick⟩ := a.exists_tick m e
  have hr : r = _ := htick
  have hdepths : r.depths = (a.sample e.samples).depths := (a.sample_tick m e).1
  rw [hdepths, hr]
  exact a.rates_assess hon ..

/-- With scaling disabled it reports none. -/
theorem rates_tick_of_disabled (a : Autoscaler R) (hoff : ¬ a.strategy.scalingEnabled = true)
    (m : Memory R) (e : Encounter) :
    let r := (a.tick m e).1
    r.originRates = ∅ ∧ r.followUpRates = ∅ ∧ r.totalRates = ∅ := by
  intro r
  obtain ⟨_, _, htick⟩ := a.exists_tick m e
  have hr : r = _ := htick
  have hdecisions : a.decisions m e = _ := if_pos hoff
  rw [hr, hdecisions]
  exact ⟨rfl, rfl, rfl⟩

end Tick

/-- The autoscaler of a configuration. -/
def ofConfig {R : Type} [Rate R] (c : Config R) : Autoscaler R := ⟨c.pipeline, c.strategy⟩

/-- The share to be drained that passes the check is finite and not negative. -/
theorem emissionFit_of_check {R : Type} [Rate R] {d : Config.Written R} {c : Config R}
    (h : d.check = .ok c) : EmissionFit (ofConfig c).strategy.decreasePerMinute := by
  have hfault : d.fault? = none ∧ c.strategy = d.strategy := by
    rw [Config.Written.check] at h
    split at h
    · cases h
    · rename_i hnone
      split at h
      · cases h
      · cases h
        exact ⟨hnone, rfl⟩
  obtain ⟨hnone, hstrategy⟩ := hfault
  rw [ofConfig, hstrategy, emissionFit_iff]
  intro hunfit
  rw [Config.Written.fault?, Strategy.fault?, if_pos hunfit] at hnone
  cases hnone

variable {a : Autoscaler Float} {depths : Table Nat} {q s : String} {b : Binding Float} {x : Float}

/-- The rates of the origins are numbers and not negative. -/
theorem isNaN_origin (hdecrease : EmissionFit a.strategy.decreasePerMinute)
    (hdepths : ∀ q n, depths.get? q = some n → n < 2 ^ 64)
    (hx : (a.origins depths).get? q = some x) : ¬ x < 0 ∧ Rate.isNaN x = false := by
  rw [origins, Wiring.get?_originRates] at hx
  obtain ⟨b, -, hx⟩ := Option.bind_eq_some_iff.mp hx
  obtain ⟨n, hn, rfl⟩ := Option.map_eq_some_iff.mp hx
  exact Rate.ofCount_mul (hdepths q n hn) hdecrease.2 hdecrease.1

theorem capacity_of_input? (hb : a.pipeline.wiring.input? s q = some b) :
    Rate.isFinite b.consumptionRate = true ∧ 0 < b.consumptionRate := by
  obtain ⟨hb, hconsumer, -⟩ := Wiring.input?_eq_some.mp hb
  exact (a.pipeline.ratesFit q b hb).1 hconsumer

/-- A service with an unbounded rate needs the largest replica count. -/
theorem required?_of_unbounded (hb : a.pipeline.wiring.input? s q = some b)
    (hx : (a.plan depths).total.get? q = some x) (hpos : ¬ x < 0) (hnum : Rate.isNaN x = false)
    (hunbounded : Rate.isFinite x = false) : a.required? depths s = some Count.ceiling := by
  obtain ⟨hfinite, hcapacity⟩ := capacity_of_input? hb
  obtain ⟨required, hrequired, hge⟩ := exists_required?_ge hb hx
  rw [replicasFor_of_unbounded hfinite hcapacity hpos hnum hunbounded] at hge
  obtain ⟨q', b', x', -, -, heq⟩ := exists_input_of_required? hrequired
  have hle : required ≤ Count.ceiling := heq ▸ replicasFor_le_ceiling _ _
  rw [hrequired, hle.antisymm hge]

/-- A service none of whose rates is a number needs nothing. -/
theorem required?_of_isNaN {required : Nat} (hrequired : a.required? depths s = some required)
    (hnone : ∀ q x, (a.pipeline.wiring.input? s q).isSome →
      (a.plan depths).total.get? q = some x → ¬ x < 0 ∧ Rate.isNaN x = true) : required = 0 := by
  obtain ⟨q, b, x, hb, hx, rfl⟩ := exists_input_of_required? hrequired
  obtain ⟨hfinite, hcapacity⟩ := capacity_of_input? hb
  obtain ⟨hpos, hx⟩ := hnone q x (Option.isSome_iff_exists.mpr ⟨b, hb⟩) hx
  exact replicasFor_of_isNaN hfinite hcapacity hpos hx

/-- Whether a queue is obscured when some depths are sampled. -/
def Obscured {R : Type} [Rate R] (a : Autoscaler R) (depths : Table Nat) (q : String) : Prop :=
  a.strategy.followUpEnabled = true ∧
    ∃ o x, (a.origins depths).get? o = some x ∧ a.pipeline.wiring.Obscures o x q

/-- The follow-up rates that are no number are those of the obscured queues. -/
theorem isNaN_followUp_iff (hdecrease : EmissionFit a.strategy.decreasePerMinute)
    (hdepths : ∀ q n, depths.get? q = some n → n < 2 ^ 64)
    (hx : (a.plan depths).followUp.get? q = some x) :
    Rate.isNaN x = true ↔ a.Obscured depths q := by
  have hrates := (Wiring.isNaN_plan_followUp_iff a.pipeline.acyclic a.pipeline.ratesFit
    (fun _ _ ho ↦ isNaN_origin hdecrease hdepths ho) a.strategy.followUpEnabled q).2
  rwa [← plan, Table.getD_eq, hx] at hrates

/-- The total rates are not negative, and those that are no number are those of the obscured
queues. -/
theorem isNaN_total_iff (hdecrease : EmissionFit a.strategy.decreasePerMinute)
    (hdepths : ∀ q n, depths.get? q = some n → n < 2 ^ 64)
    (hx : (a.plan depths).total.get? q = some x) :
    ¬ x < 0 ∧ (Rate.isNaN x = true ↔ a.Obscured depths q) := by
  have hrates := Wiring.isNaN_plan_total_iff a.pipeline.acyclic a.pipeline.ratesFit
    (fun _ _ ho ↦ isNaN_origin hdecrease hdepths ho) a.strategy.followUpEnabled q
  rwa [← plan, Table.getD_eq, hx] at hrates

/-- **What overload comes to.** Take any configuration that passes its checks and any tick whose
depths fit in 64 bits, in binary64 arithmetic. The rates of the origins are numbers. A follow-up
rate or a total rate is no number exactly if its queue is obscured: with follow-up enabled, there is
an edge of rate zero on a production path from an origin to the queue, and the inflow of the queue
that the edge leaves has grown past all bounds. A share of a replica is no number exactly if the
total rate is none. And if the total rate of a queue has grown past all bounds, its service is
reported to need the largest replica count. -/
theorem overload_demand {d : Config.Written Float} {c : Config Float} (h : d.check = .ok c)
    (m : Memory Float) (e : Encounter)
    (hdepths : ∀ q n, ((ofConfig c).tick m e).1.depths.get? q = some n → n < 2 ^ 64) :
    let r := ((ofConfig c).tick m e).1
    (∀ q x, r.originRates.get? q = some x → Rate.isNaN x = false) ∧
      (∀ q x, r.followUpRates.get? q = some x →
        (Rate.isNaN x = true ↔ (ofConfig c).Obscured r.depths q)) ∧
      (∀ q x, r.totalRates.get? q = some x →
        (Rate.isNaN x = true ↔ (ofConfig c).Obscured r.depths q)) ∧
      ∀ s q b x, c.pipeline.wiring.input? s q = some b → r.totalRates.get? q = some x →
        (Rate.isNaN (x / effectiveCapacity b.consumptionRate) = true ↔ Rate.isNaN x = true) ∧
          (Rate.isNaN x = false → Rate.isFinite x = false →
            r.demand.get? s = some Count.ceiling) := by
  intro r
  have hdecrease : EmissionFit (ofConfig c).strategy.decreasePerMinute := emissionFit_of_check h
  by_cases hon : (ofConfig c).strategy.scalingEnabled = true
  · obtain ⟨horigin, hfollowUp, htotal⟩ := (ofConfig c).rates_tick hon m e
    rw [horigin, hfollowUp, htotal]
    refine ⟨fun q x hx ↦ (isNaN_origin hdecrease hdepths hx).2,
      fun q x hx ↦ isNaN_followUp_iff hdecrease hdepths hx,
      fun q x hx ↦ (isNaN_total_iff hdecrease hdepths hx).2, fun s q b x hb hx ↦ ?_⟩
    have hpos := (isNaN_total_iff hdecrease hdepths hx).1
    obtain ⟨hfinite, hcapacity⟩ := capacity_of_input? (a := ofConfig c) hb
    refine ⟨isNaN_share_iff hfinite hcapacity hpos, fun hnum hunbounded ↦ ?_⟩
    rw [get?_demand_tick, if_pos hon, ← (sample_tick _ m e).1]
    exact required?_of_unbounded (a := ofConfig c) hb hx hpos hnum hunbounded
  · obtain ⟨horigin, hfollowUp, htotal⟩ := (ofConfig c).rates_tick_of_disabled hon m e
    simp [r, horigin, hfollowUp, htotal]

end Autoscaler

/-! ### A relay that passes nothing on -/

namespace Config

/-- A relay whose reader passes nothing on, and which is to be drained many times a minute. -/
def Written.dryRelay : Written Float where
  application := defaultApplication
  strategy :=
    { exportMetrics := true, scalingEnabled := true, followUpEnabled := true
      decreasePerMinute := 1e300, stabilizationSeconds := 300, maxReplicas := 20 }
  controlLoop := {}
  deployments := none
  broker := none
  queues := .ofList
    [("in", ⟨"reader", some 10, .singleton "out" 0⟩), ("out", ⟨"writer", some 10, ∅⟩)]

namespace Written

theorem get?_wiring_dryRelay (q : String) :
    dryRelay.wiring.get? q = if q = "out" then some ⟨"writer", 10, ∅⟩
      else if q = "in" then some ⟨"reader", 10, .singleton "out" 0⟩ else none := by
  have hwiring : dryRelay.wiring = .ofList
      [("in", ⟨"reader", 10, .singleton "out" 0⟩), ("out", ⟨"writer", 10, ∅⟩)] := rfl
  simp [hwiring, Table.ofList, Table.get?_insert]

theorem edges_dryRelay (q : String) :
    dryRelay.wiring.edges q = if q = "in" then .singleton "out" 0 else ∅ := by
  rw [Wiring.edges, get?_wiring_dryRelay]
  split_ifs with hout hin hin
  · simp [hout] at hin
  all_goals rfl

theorem not_reaches_in (p : String) : ¬ dryRelay.wiring.Reaches p "in" := by
  intro h
  obtain ⟨q, -, hq⟩ := h.exists_producer
  rw [Wiring.produces_iff_mem, edges_dryRelay] at hq
  split_ifs at hq
  · exact absurd (Table.mem_keys_iff.mpr hq) (by decide)
  · exact Table.not_mem_empty _ hq

theorem isSome_input?_dryRelay {s q : String} :
    (dryRelay.wiring.input? s q).isSome ↔
      q = "out" ∧ s = "writer" ∨ q = "in" ∧ s = "reader" := by
  have hnamed : Text.isAllBlank "writer" = false ∧ Text.isAllBlank "reader" = false := by
    decide
  rw [Wiring.isSome_input?_iff, get?_wiring_dryRelay]
  constructor
  · rintro ⟨hs, -⟩
    split_ifs at hs with hout hin
    · exact .inl ⟨hout, (Option.some.inj hs).symm⟩
    · exact .inr ⟨hin, (Option.some.inj hs).symm⟩
    · cases hs
  · rintro (⟨rfl, rfl⟩ | ⟨rfl, rfl⟩)
    · exact ⟨rfl, hnamed.1⟩
    · exact ⟨rfl, hnamed.2⟩

theorem fault?_wiring_dryRelay : dryRelay.wiring.fault? = none := by
  have hrates : dryRelay.wiring.rateFault?.isNone = true := rfl
  have hcycle (x y z : Float) : Wiring.findCycle? (.ofList
      [("in", (⟨"reader", x, .singleton "out" y⟩ : Binding Float)), ("out", ⟨"writer", z, ∅⟩)]) =
        none := by cbv
  rw [Wiring.fault?, Option.isNone_iff_eq_none.mp hrates]
  exact congrArg (Option.map _) (hcycle 10 0 10)

/-- The checks pass. -/
theorem check_dryRelay :
    dryRelay.check = .ok ⟨defaultApplication, dryRelay.strategy, {}, none, none,
      ⟨dryRelay.wiring, fault?_wiring_dryRelay⟩⟩ := by
  have hfault : dryRelay.fault?.isNone = true := by decide +kernel
  have hpipeline : Pipeline.ofWiring dryRelay.wiring =
      .ok ⟨dryRelay.wiring, fault?_wiring_dryRelay⟩ :=
    Pipeline.ofWiring_eq_ok_iff.mpr ⟨fault?_wiring_dryRelay, rfl⟩
  have hlabel : Text.trim dryRelay.application = defaultApplication := by decide
  rw [check, Option.isNone_iff_eq_none.mp hfault]
  simp only [hpipeline, hlabel]
  rfl

end Written

/-- The configuration of such a relay. -/
def dryRelay : Config Float :=
  ⟨defaultApplication, Written.dryRelay.strategy, {}, none, none,
    ⟨Written.dryRelay.wiring, Written.fault?_wiring_dryRelay⟩⟩

end Config

namespace Autoscaler

/-- What a dry relay meets that has been flooded. -/
def flood : Encounter := .relay (.ok 18446744073709551615) (.ok 18446744073709551615) 5 0 []

/-- What a dry relay reports of it. -/
def floodReport : Report Float :=
  ((ofConfig Config.dryRelay).tick { gauges := ⟨"cascade", ∅⟩ } flood).1

theorem get?_depths_floodReport (q : String) :
    floodReport.depths.get? q =
      if q = "in" ∨ q = "out" then some 18446744073709551615 else none := by
  have hdepths : floodReport.depths =
      .ofList [("out", 18446744073709551615), ("in", 18446744073709551615)] := by
    rw [floodReport, (sample_tick ..).1, sample, Sample.depths_close]
    rfl
  rw [hdepths]
  by_cases hin : q = "in" <;> by_cases hout : q = "out" <;>
    simp [Table.ofList, Table.get?_insert, hin, hout]

theorem depth_floodReport {q : String} {n : Nat} (hn : floodReport.depths.get? q = some n) :
    n < 2 ^ 64 := by
  rw [get?_depths_floodReport] at hn
  split_ifs at hn
  cases hn
  decide

theorem get?_origins_floodReport {q : String} (hq : q = "in" ∨ q = "out") :
    ((ofConfig Config.dryRelay).origins floodReport.depths).get? q =
      some (Rate.ofCount 18446744073709551615 * 1e300) := by
  have hconsumed : q ∈ Config.Written.dryRelay.wiring.consumed := by
    rw [Wiring.mem_consumed_iff]
    rcases hq with rfl | rfl
    · exact ⟨"reader", Config.Written.isSome_input?_dryRelay.mpr (.inr ⟨rfl, rfl⟩)⟩
    · exact ⟨"writer", Config.Written.isSome_input?_dryRelay.mpr (.inl ⟨rfl, rfl⟩)⟩
  obtain ⟨b, hb⟩ := Table.mem_iff_get?.mp hconsumed
  have horigin := Wiring.get?_originRates Config.Written.dryRelay.wiring (1e300 : Float)
    floodReport.depths q
  rw [hb, get?_depths_floodReport, if_pos hq] at horigin
  exact horigin

/-- The rate at which the queues of a flooded relay are to be drained is past all bounds. -/
theorem flood_unbounded :
    Rate.isNaN (Rate.ofCount 18446744073709551615 * (1e300 : Float)) = false ∧
      Rate.isFinite (Rate.ofCount 18446744073709551615 * (1e300 : Float)) = false := by
  decide +kernel

theorem get?_totalRates_floodReport :
    floodReport.totalRates.get? "in" = some (Rate.ofCount 18446744073709551615 * 1e300) := by
  obtain ⟨-, -, htotal⟩ := rates_tick (ofConfig Config.dryRelay) rfl
    { gauges := ⟨"cascade", ∅⟩ } flood
  have hcaused : (Config.Written.dryRelay.wiring.followUpRates
      ((ofConfig Config.dryRelay).origins floodReport.depths)).get? "in" = none := by
    refine Table.not_mem_iff_get?.mp fun hmem ↦ ?_
    obtain ⟨o, -, ho⟩ := (Wiring.mem_followUpRates Config.dryRelay.pipeline.acyclic).mp hmem
    exact Config.Written.not_reaches_in o ho
  have hplan := Wiring.get?_plan_total Config.Written.dryRelay.wiring true
    ((ofConfig Config.dryRelay).origins floodReport.depths) "in"
  rw [if_pos rfl, hcaused] at hplan
  exact (congrArg (Table.get? · "in") htotal).trans
    (hplan.trans (get?_origins_floodReport (.inl rfl)))

/-- The reader of a flooded relay needs the largest replica count. -/
theorem flood_reader_demand :
    Config.Written.dryRelay.check = .ok Config.dryRelay ∧
      (∀ q n, floodReport.depths.get? q = some n → n < 2 ^ 64) ∧
      ∃ x, floodReport.totalRates.get? "in" = some x ∧ Rate.isNaN x = false ∧
        Rate.isFinite x = false ∧ floodReport.demand.get? "reader" = some Count.ceiling := by
  have hcheck : Config.Written.dryRelay.check = .ok Config.dryRelay :=
    Config.Written.check_dryRelay
  obtain ⟨-, -, -, hneed⟩ := overload_demand hcheck { gauges := ⟨"cascade", ∅⟩ } flood
    fun q n hn ↦ depth_floodReport hn
  obtain ⟨b, hb⟩ := Option.isSome_iff_exists.mp
    (Config.Written.isSome_input?_dryRelay.mpr (.inr ⟨rfl, rfl⟩))
  obtain ⟨hnum, hunbounded⟩ := flood_unbounded
  exact ⟨hcheck, fun q n hn ↦ depth_floodReport hn, _, get?_totalRates_floodReport, hnum,
    hunbounded, (hneed "reader" "in" b _ hb get?_totalRates_floodReport).2 hnum hunbounded⟩

theorem obscured_flood : (ofConfig Config.dryRelay).Obscured floodReport.depths "out" := by
  obtain ⟨rates, hrates⟩ := Wiring.exists_propagate Config.dryRelay.pipeline.acyclic "in"
    (Rate.ofCount 18446744073709551615 * (1e300 : Float))
  have hedge : (Config.Written.dryRelay.wiring.edges "in").get? "out" = some 0 := by
    rw [Config.Written.edges_dryRelay, if_pos rfl]
    rfl
  exact ⟨rfl, "in", _, get?_origins_floodReport (.inl rfl), rates, hrates, "in", "out",
    .refl "in", ⟨0, hedge, Rate.Saturating.zero_not_neg, flood_unbounded.2⟩, .refl "out"⟩

/-- The writer of a flooded relay, whose queue is just as full, needs nothing: what comes of the
reader is no number. -/
theorem flood_writer_demand :
    Config.Written.dryRelay.check = .ok Config.dryRelay ∧
      (∀ q n, floodReport.depths.get? q = some n → n < 2 ^ 64) ∧
      (∃ x, floodReport.totalRates.get? "out" = some x ∧ Rate.isNaN x = true) ∧
      floodReport.demand.get? "writer" = some 0 := by
  have hcheck : Config.Written.dryRelay.check = .ok Config.dryRelay :=
    Config.Written.check_dryRelay
  have hdepths : ∀ q n, floodReport.depths.get? q = some n → n < 2 ^ 64 :=
    fun q n hn ↦ depth_floodReport hn
  have hnone : ∀ x, ((ofConfig Config.dryRelay).plan floodReport.depths).total.get? "out" = some x →
      ¬ x < 0 ∧ Rate.isNaN x = true := fun x hx ↦ by
    obtain ⟨hpos, hiff⟩ := isNaN_total_iff (emissionFit_of_check hcheck) hdepths hx
    exact ⟨hpos, hiff.mpr obscured_flood⟩
  have hmem : "out" ∈ ((ofConfig Config.dryRelay).plan floodReport.depths).total :=
    (Wiring.mem_plan_total Config.dryRelay.pipeline.acyclic).mpr
      (.inl (Table.mem_iff_get?.mpr ⟨_, get?_origins_floodReport (.inr rfl)⟩))
  obtain ⟨x, hx⟩ := Table.mem_iff_get?.mp hmem
  obtain ⟨-, -, htotal⟩ := rates_tick (ofConfig Config.dryRelay) rfl
    { gauges := ⟨"cascade", ∅⟩ } flood
  refine ⟨hcheck, hdepths, ⟨x, (congrArg (Table.get? · "out") htotal).trans hx, (hnone x hx).2⟩, ?_⟩
  obtain ⟨b, hb⟩ := Option.isSome_iff_exists.mp
    (Config.Written.isSome_input?_dryRelay.mpr (.inl ⟨rfl, rfl⟩))
  obtain ⟨required, hrequired, -⟩ := exists_required?_ge (a := ofConfig Config.dryRelay) hb hx
  obtain rfl : required = 0 := by
    refine required?_of_isNaN hrequired fun q x hq hx ↦ ?_
    rcases Config.Written.isSome_input?_dryRelay.mp hq with ⟨rfl, -⟩ | ⟨-, hs⟩
    · exact hnone x hx
    · exact absurd hs (by decide)
  have hdemand := get?_demand_tick (ofConfig Config.dryRelay) { gauges := ⟨"cascade", ∅⟩ } flood
    "writer"
  rw [if_pos (show (ofConfig Config.dryRelay).strategy.scalingEnabled = true from rfl),
    ← (sample_tick ..).1] at hdemand
  exact hdemand.trans hrequired

end Autoscaler

end QueueScaler
