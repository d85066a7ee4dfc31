import QueueScaler.Proofs.Pipeline.CycleSearch
/-!
# Which wirings are pipelines

A wiring passes the checks exactly when its rates are fit and it is acyclic, and it passes them
unchanged. Of several faults the first unfit rate in name order is reported, the consumption rate of
a queue before its production rates; a cycle is reported only when all rates are fit, by a queue
that lies on one.

## Main definitions

* `Binding.DrainFit`, `EmissionFit`, `Binding.RatesFit`, `Wiring.RatesFit`: the rates that a
  pipeline may have.
* `Wiring.FirstUnfit`: the fault of the first unfit rate.

## Main results

* `Wiring.firstUnfit_of_rateFault?`: the rate that the checks report is the first unfit one.
* `Pipeline.ofWiring_exact`: what the checks accept, and what they report otherwise.
-/

namespace QueueScaler

variable {R : Type} [Rate R]

/-! ### Fit rates -/

/-- Whether a queue is drained at a positive finite rate, if it is consumed at all. -/
def Binding.DrainFit (b : Binding R) : Prop :=
  b.hasConsumer = true → Rate.isFinite b.consumptionRate = true ∧ 0 < b.consumptionRate

/-- Whether a production rate is finite and not negative. -/
def EmissionFit (rate : R) : Prop := Rate.isFinite rate = true ∧ ¬ rate < 0

/-- Whether all rates of a queue are fit. -/
def Binding.RatesFit (b : Binding R) : Prop :=
  b.DrainFit ∧ ∀ target rate, b.produces.get? target = some rate → EmissionFit rate

/-- Whether all rates of a wiring are fit. -/
def Wiring.RatesFit (w : Wiring R) : Prop := ∀ queue b, w.get? queue = some b → b.RatesFit

/-- The fault of the first unfit rate of a wiring, in name order of the queues. Of one queue the
consumption rate comes before the production rates, and these come in name order. -/
inductive Wiring.FirstUnfit (w : Wiring R) : WiringFault R → Prop
  /-- A consumption rate. -/
  | consumption {queue : String} {b : Binding R} (managed : w.get? queue = some b)
      (before : ∀ earlier < queue, ∀ c, w.get? earlier = some c → c.RatesFit)
      (unfit : ¬ b.DrainFit) :
      FirstUnfit w (.consumption queue b.consumptionRate)
  /-- A production rate. -/
  | production {queue target : String} {b : Binding R} {rate : R} (managed : w.get? queue = some b)
      (before : ∀ earlier < queue, ∀ c, w.get? earlier = some c → c.RatesFit)
      (drain : b.DrainFit) (edge : b.produces.get? target = some rate)
      (emissions : ∀ earlier < target, ∀ x, b.produces.get? earlier = some x → EmissionFit x)
      (unfit : ¬ EmissionFit rate) :
      FirstUnfit w (.production queue target rate)

/-! ### The check of the rates -/

theorem emissionFit_iff {rate : R} : EmissionFit rate ↔ ¬ (¬ Rate.isFinite rate ∨ rate < 0) := by
  rw [EmissionFit, not_or, not_not]

namespace Binding

variable {b : Binding R} {queue : String} {fault : WiringFault R}

theorem drainFit_iff :
    b.DrainFit ↔
      ¬ (b.hasConsumer ∧ ¬ (Rate.isFinite b.consumptionRate ∧ 0 < b.consumptionRate)) := by
  rw [DrainFit, not_and, not_not]

/-- A queue passes the check exactly when its rates are fit. -/
theorem rateFault?_eq_none_iff : b.rateFault? queue = none ↔ b.RatesFit := by
  rw [rateFault?, RatesFit, drainFit_iff]
  split
  · rename_i h
    exact iff_of_false (Option.some_ne_none _) fun hfit ↦ hfit.1 h
  · rename_i h
    rw [and_iff_right h, Table.findSome?_entries_eq_none]
    refine forall₃_congr fun target rate _ ↦ ?_
    simp only [emissionFit_iff, ite_eq_right_iff, reduceCtorEq, imp_false]

/-- The fault of a queue is that of its consumption rate or else of its first unfit production
rate. -/
theorem rateFault?_eq_some (h : b.rateFault? queue = some fault) :
    (¬ b.DrainFit ∧ fault = .consumption queue b.consumptionRate) ∨
      b.DrainFit ∧ ∃ target rate, b.produces.get? target = some rate ∧ ¬ EmissionFit rate ∧
        fault = .production queue target rate ∧
          ∀ earlier < target, ∀ x, b.produces.get? earlier = some x → EmissionFit x := by
  rw [drainFit_iff]
  rw [rateFault?] at h
  split at h
  · rename_i hunfit
    exact .inl ⟨not_not_intro hunfit, (Option.some.inj h).symm⟩
  · rename_i hfit
    obtain ⟨target, rate, hedge, hfault, hbefore⟩ := Table.exists_of_findSome?_entries h
    refine .inr ⟨hfit, target, rate, hedge, ?_⟩
    simp only [emissionFit_iff, not_not]
    simp only [Option.ite_none_right_eq_some, Option.some.injEq, ite_eq_right_iff, reduceCtorEq,
      imp_false] at hfault hbefore
    exact ⟨hfault.1, hfault.2.symm, hbefore⟩

end Binding

namespace Wiring

variable {w : Wiring R} {fault : WiringFault R}

/-- A wiring passes the check exactly when its rates are fit. -/
theorem rateFault?_eq_none_iff : w.rateFault? = none ↔ w.RatesFit :=
  Table.findSome?_entries_eq_none.trans
    (forall₃_congr fun _ _ _ ↦ Binding.rateFault?_eq_none_iff)

/-- **The rate that the check reports is the first unfit one.** -/
theorem firstUnfit_of_rateFault? (h : w.rateFault? = some fault) : w.FirstUnfit fault := by
  obtain ⟨queue, b, hb, hfault, hearlier⟩ := Table.exists_of_findSome?_entries h
  have hbefore : ∀ earlier < queue, ∀ c, w.get? earlier = some c → c.RatesFit :=
    fun earlier hlt c hc ↦ Binding.rateFault?_eq_none_iff.mp (hearlier earlier hlt c hc)
  rcases Binding.rateFault?_eq_some hfault with
    ⟨hunfit, rfl⟩ | ⟨hdrain, target, rate, hedge, hunfit, rfl, hemissions⟩
  · exact .consumption hb hbefore hunfit
  · exact .production hb hbefore hdrain hedge hemissions hunfit

theorem fault?_eq_none_iff : w.fault? = none ↔ w.RatesFit ∧ w.Acyclic := by
  rw [fault?, ← rateFault?_eq_none_iff, ← findCycle?_eq_none_iff]
  cases w.rateFault? <;> simp

end Wiring

theorem Wiring.RatesFit.edge {w : Wiring R} (h : w.RatesFit) {p t : String} {rate : R}
    (hrate : (w.edges p).get? t = some rate) : EmissionFit rate := by
  rw [edges] at hrate
  cases hb : w.get? p with
  | none => simp [hb] at hrate
  | some b =>
    rw [hb] at hrate
    exact (h p b hb).2 t rate hrate

/-! ### The whole check -/

namespace Pipeline

variable {w : Wiring R} {fault : WiringFault R}

/-- The rates of a pipeline are fit. -/
theorem ratesFit (p : Pipeline R) : p.wiring.RatesFit := (Wiring.fault?_eq_none_iff.mp p.valid).1

theorem ofWiring_eq_error_iff : ofWiring w = .error fault ↔ w.fault? = some fault := by
  rw [ofWiring]
  split
  · rename_i h
    rw [h, Except.error.injEq, Option.some.injEq]
  · rename_i h
    exact iff_of_false (fun he ↦ by cases he) fun he ↦ Option.some_ne_none _ (he.symm.trans h)

theorem ofWiring_eq_ok_iff {p : Pipeline R} :
    ofWiring w = .ok p ↔ w.fault? = none ∧ p.wiring = w := by
  rw [ofWiring]
  split
  · rename_i h
    rw [h]
    exact iff_of_false (fun he ↦ by cases he) fun he ↦ absurd he.1 (Option.some_ne_none _)
  · rename_i h
    obtain ⟨wiring, valid⟩ := p
    rw [and_iff_right h, Except.ok.injEq, mk.injEq, eq_comm]

/-- **The checks accept exactly the valid pipelines.** A wiring becomes a pipeline if and only if
each consumed queue is drained at a positive finite rate, each production rate is finite and not
negative, and no production cycle exists, and the pipeline then has that very wiring. If a rate is
unfit, the first such rate is reported, whether or not there is a cycle as well. Otherwise a cycle
is reported by a managed queue that lies on one. -/
theorem ofWiring_exact (w : Wiring R) :
    ((∃ p, ofWiring w = .ok p) ↔ w.RatesFit ∧ w.Acyclic) ∧
      (∀ p, ofWiring w = .ok p → p.wiring = w) ∧
      (¬ w.RatesFit → ∃ fault, ofWiring w = .error fault ∧ w.FirstUnfit fault) ∧
      (w.RatesFit → ¬ w.Acyclic →
        ∃ q ∈ w, ofWiring w = .error (.cycle q) ∧ w.Reaches q q) := by
  refine ⟨?_, fun p hp ↦ (ofWiring_eq_ok_iff.mp hp).2, fun hunfit ↦ ?_, fun hfit hcyclic ↦ ?_⟩
  · rw [← Wiring.fault?_eq_none_iff]
    exact ⟨fun ⟨_, hp⟩ ↦ (ofWiring_eq_ok_iff.mp hp).1,
      fun h ↦ ⟨⟨w, h⟩, ofWiring_eq_ok_iff.mpr ⟨h, rfl⟩⟩⟩
  · obtain ⟨fault, hfault⟩ :=
      Option.ne_none_iff_exists'.mp (mt Wiring.rateFault?_eq_none_iff.mp hunfit)
    refine ⟨fault, ofWiring_eq_error_iff.mpr ?_, Wiring.firstUnfit_of_rateFault? hfault⟩
    rw [Wiring.fault?, hfault]
  · obtain ⟨q, hq⟩ :=
      Option.ne_none_iff_exists'.mp (mt Wiring.findCycle?_eq_none_iff.mp hcyclic)
    have hreach := Wiring.reaches_of_findCycle? hq
    refine ⟨q, hreach.mem, ofWiring_eq_error_iff.mpr ?_, hreach⟩
    rw [Wiring.fault?, Wiring.rateFault?_eq_none_iff.mpr hfit, hq]
    rfl

/-- A queue that feeds itself and is not drained. -/
def stagnant : Wiring Rat := .singleton "in" ⟨"reader", 0, .singleton "in" 1⟩

/-- A queue that feeds itself but is not drained is reported for its rate. -/
theorem ofWiring_stagnant :
    ¬ stagnant.Acyclic ∧ ∃ fault, ofWiring stagnant = .error fault ∧ stagnant.FirstUnfit fault := by
  have hedge : stagnant.Produces "in" "in" := by decide
  have hcyclic : ¬ stagnant.Acyclic := fun h ↦ h "in" hedge.reaches
  have hunfit : ¬ stagnant.RatesFit := fun h ↦ absurd ((h "in" _ rfl).1 rfl).2 (by decide)
  exact ⟨hcyclic, (ofWiring_exact stagnant).2.2.1 hunfit⟩

end Pipeline

end QueueScaler
