import QueueScaler.Config.Reader
import QueueScaler.Proofs.Pipeline.Demand
import QueueScaler.Proofs.Pipeline.Validity
import QueueScaler.Proofs.Text.Trim
/-!
# Which configurations are accepted

A configuration is accepted exactly if nothing is wrong with it. Otherwise, of all that is wrong,
the fault whose check comes first is reported. All faults in the order of the checks make up a list,
and the checks find its head.

## Main definitions

* `Config.Written.Usable`: what is asked of a configuration as written.
* `Config.Written.Faulty`: what is wrong with one, whatever the order of the checks.
* `ConfigFault.Precedes`: that order.
* `Config.Written.faults`: everything that is wrong, in that order.

## Main results

* `Config.Written.mem_faults`, `Config.Written.pairwise_faults`: what is listed, and its order.
* `Config.Written.check_eq_error_iff`: the checks find the head of the list.
* `Config.Written.usable_iff`: nothing is wrong with a configuration exactly if it is usable.
* `Config.ofString_exact`: which texts are accepted, and what is reported of the others.
-/

namespace QueueScaler

variable {R : Type}

/-! ### The order of the checks -/

namespace ConfigFault

/-- The place of a fault in the order of the checks. -/
def rank : ConfigFault R → Nat
  | .unreadable => 0
  | .malformed => 1
  | .decrease _ => 2
  | .noReplicas => 3
  | .noInterval => 4
  | .noCallTimeout => 5
  | .blankApplication => 6
  | .missingRate _ => 7
  | .wiring _ => 8

/-- The queue by which the check for missing rates has come to a fault. -/
def queue : ConfigFault R → String
  | .missingRate queue => queue
  | _ => ""

/-- Whether one fault is looked for before another. Missing rates are looked for in name order of
the queues. -/
def Precedes (fault later : ConfigFault R) : Prop :=
  fault.rank < later.rank ∨ fault.rank = later.rank ∧ fault.queue < later.queue

theorem Precedes.asymm {fault later : ConfigFault R} (h : fault.Precedes later) :
    ¬ later.Precedes fault := by
  rintro (hlt | ⟨heq, hlt⟩) <;> rcases h with hlt' | ⟨heq', hlt'⟩
  · omega
  · omega
  · omega
  · exact String.lt_asymm hlt hlt'

/-- Adds a fault in front of others if its check fails. -/
def note (p : Prop) [Decidable p] (fault : ConfigFault R) (rest : List (ConfigFault R)) :
    List (ConfigFault R) :=
  if p then fault :: rest else rest

section Note

variable {p : Prop} [Decidable p] {fault other : ConfigFault R} {rest : List (ConfigFault R)}

theorem mem_note : other ∈ note p fault rest ↔ p ∧ other = fault ∨ other ∈ rest := by
  rw [note]
  split
  · rename_i h
    rw [List.mem_cons, and_iff_right h]
  · rename_i h
    rw [or_iff_right fun h' ↦ h h'.1]

theorem head?_note : (note p fault rest).head? = if p then some fault else rest.head? := by
  rw [note]
  split <;> rfl

end Note

/-- Whether faults stand in the order of the checks, none of them before a given place. -/
structure OrderedFrom (place : Nat) (faults : List (ConfigFault R)) : Prop where
  /-- Each fault precedes those behind it. -/
  ordered : faults.Pairwise Precedes
  /-- No fault stands before the place. -/
  place_le : ∀ fault ∈ faults, place ≤ fault.rank

theorem OrderedFrom.note {place : Nat} {p : Prop} [Decidable p] {fault : ConfigFault R}
    {rest : List (ConfigFault R)} (hfault : fault.rank = place)
    (hrest : OrderedFrom (place + 1) rest) : OrderedFrom place (note p fault rest) := by
  constructor
  · rw [ConfigFault.note]
    split
    · refine List.pairwise_cons.mpr ⟨fun later hlater ↦ .inl ?_, hrest.ordered⟩
      exact hfault ▸ hrest.place_le later hlater
    · exact hrest.ordered
  · intro other hother
    rcases mem_note.mp hother with ⟨-, rfl⟩ | hother
    · exact Nat.le_of_eq hfault.symm
    · exact Nat.le_of_succ_le (hrest.place_le other hother)

/-- In a list in the order of the checks the head is the one that precedes all others. -/
theorem head?_eq_some_iff {faults : List (ConfigFault R)} (hfaults : faults.Pairwise Precedes)
    {fault : ConfigFault R} :
    faults.head? = some fault ↔
      fault ∈ faults ∧ ∀ other ∈ faults, other = fault ∨ fault.Precedes other := by
  cases faults with
  | nil => simp
  | cons first rest =>
    obtain ⟨hfirst, -⟩ := List.pairwise_cons.mp hfaults
    rw [List.head?_cons, Option.some.injEq]
    constructor
    · rintro rfl
      exact ⟨List.mem_cons_self,
        fun other hother ↦ (List.mem_cons.mp hother).imp_right (hfirst other)⟩
    · rintro ⟨hmem, hall⟩
      rcases List.mem_cons.mp hmem with rfl | hmem
      · rfl
      · exact (hall first List.mem_cons_self).resolve_right (hfirst fault hmem).asymm

end ConfigFault

namespace Config

/-! ### Missing rates -/

/-- A queue lacks its rate if none is given and there is a service. -/
theorem WrittenQueue.lacksRate_iff {q : WrittenQueue R} :
    q.lacksRate = true ↔ q.consumptionRate = none ∧ Text.trim q.service ≠ "" := by
  rw [lacksRate, Bool.and_eq_true, Option.isNone_iff_eq_none, Bool.not_eq_true', Ne,
    Text.trim_eq_empty_iff, Bool.not_eq_true]

namespace Written

open ConfigFault (note mem_note head?_note OrderedFrom)

/-- The queues of services without a consumption rate. -/
def missingRates (d : Written R) : List (ConfigFault R) :=
  d.queues.entries.filterMap fun (name, q) ↦ if q.lacksRate then some (.missingRate name) else none

theorem mem_missingRates {d : Written R} {fault : ConfigFault R} :
    fault ∈ d.missingRates ↔
      ∃ queue q, d.queues.get? queue = some q ∧ q.lacksRate = true ∧
        fault = .missingRate queue := by
  rw [missingRates, List.mem_filterMap]
  constructor
  · rintro ⟨⟨queue, q⟩, hq, hfault⟩
    obtain ⟨hlacks, hfault⟩ := Option.ite_none_right_eq_some.mp hfault
    exact ⟨queue, q, Table.mem_entries_iff.mp hq, hlacks, (Option.some.inj hfault).symm⟩
  · rintro ⟨queue, q, hq, hlacks, rfl⟩
    exact ⟨(queue, q), Table.mem_entries_iff.mpr hq, if_pos hlacks⟩

variable [Rate R]

/-! ### Usable and faulty configurations -/

/-- What is asked of a configuration as written. -/
structure Usable (d : Written R) : Prop where
  /-- The share to be drained is finite and not negative. -/
  decrease : Rate.isFinite d.strategy.decreasePerMinute = true ∧ ¬ d.strategy.decreasePerMinute < 0
  /-- At least one replica is allowed. -/
  replicas : 1 ≤ d.strategy.maxReplicas
  /-- There is some time between two ticks. -/
  interval : 1 ≤ d.controlLoop.intervalSeconds
  /-- There is some time for an external call. -/
  callTimeout : 1 ≤ d.controlLoop.callTimeoutSeconds
  /-- The application has a label. -/
  application : Text.trim d.application ≠ ""
  /-- Every queue of a service has a consumption rate. -/
  rates : ∀ queue q, d.queues.get? queue = some q → Text.trim q.service ≠ "" →
    q.consumptionRate.isSome = true
  /-- The queues form a pipeline. -/
  pipeline : ∃ p, Pipeline.ofWiring d.wiring = .ok p

/-- What is wrong with a configuration as written. -/
inductive Faulty (d : Written R) : ConfigFault R → Prop
  /-- The share to be drained is negative or not finite. -/
  | decrease (unfit : ¬ (Rate.isFinite d.strategy.decreasePerMinute = true ∧
      ¬ d.strategy.decreasePerMinute < 0)) : Faulty d (.decrease d.strategy.decreasePerMinute)
  /-- No replica is allowed. -/
  | noReplicas (none : d.strategy.maxReplicas = 0) : Faulty d .noReplicas
  /-- There is no time between two ticks. -/
  | noInterval (none : d.controlLoop.intervalSeconds = 0) : Faulty d .noInterval
  /-- There is no time for an external call. -/
  | noCallTimeout (none : d.controlLoop.callTimeoutSeconds = 0) : Faulty d .noCallTimeout
  /-- The label of the application is blank. -/
  | blankApplication (blank : Text.trim d.application = "") : Faulty d .blankApplication
  /-- A queue of a service has no consumption rate. -/
  | missingRate {queue : String} {q : WrittenQueue R} (written : d.queues.get? queue = some q)
      (consumed : Text.trim q.service ≠ "") (missing : q.consumptionRate = none) :
      Faulty d (.missingRate queue)
  /-- The queues form no pipeline. -/
  | wiring {fault : WiringFault R} (refused : Pipeline.ofWiring d.wiring = .error fault) :
      Faulty d (.wiring fault)

/-- Why the queues form no pipeline. -/
def wiringFaults (d : Written R) : List (ConfigFault R) :=
  match Pipeline.ofWiring d.wiring with
  | .error fault => [.wiring fault]
  | .ok _ => []

/-- Everything that is wrong with a configuration as written, in the order of the checks. -/
def faults (d : Written R) : List (ConfigFault R) :=
  note (¬ Rate.isFinite d.strategy.decreasePerMinute ∨ d.strategy.decreasePerMinute < 0)
      (.decrease d.strategy.decreasePerMinute) <|
    note (d.strategy.maxReplicas = 0) .noReplicas <|
    note (d.controlLoop.intervalSeconds = 0) .noInterval <|
    note (d.controlLoop.callTimeoutSeconds = 0) .noCallTimeout <|
    note (Text.isAllBlank d.application) .blankApplication <|
    d.missingRates ++ d.wiringFaults

section Faults

variable {d : Written R} {fault : ConfigFault R}

theorem mem_wiringFaults :
    fault ∈ d.wiringFaults ↔
      ∃ refusal, Pipeline.ofWiring d.wiring = .error refusal ∧ fault = .wiring refusal := by
  rw [wiringFaults]
  cases Pipeline.ofWiring d.wiring <;> simp

theorem mem_faults : fault ∈ d.faults ↔ d.Faulty fault := by
  simp only [faults, mem_note, List.mem_append, mem_missingRates, mem_wiringFaults,
    WrittenQueue.lacksRate_iff, ← Text.trim_eq_empty_iff]
  constructor
  · rintro (⟨hunfit, rfl⟩ | ⟨hnone, rfl⟩ | ⟨hnone, rfl⟩ | ⟨hnone, rfl⟩ | ⟨hblank, rfl⟩ |
      ⟨queue, q, hq, ⟨hmissing, hconsumed⟩, rfl⟩ | ⟨refusal, hrefused, rfl⟩)
    · exact .decrease fun hfit ↦ hunfit.elim (· hfit.1) hfit.2
    · exact .noReplicas hnone
    · exact .noInterval hnone
    · exact .noCallTimeout hnone
    · exact .blankApplication hblank
    · exact .missingRate hq hconsumed hmissing
    · exact .wiring hrefused
  · rintro (hunfit | hnone | hnone | hnone | hblank | ⟨hq, hconsumed, hmissing⟩ | hrefused)
    · exact .inl ⟨(not_and_or.mp hunfit).imp_right not_not.mp, rfl⟩
    · exact .inr (.inl ⟨hnone, rfl⟩)
    · exact .inr (.inr (.inl ⟨hnone, rfl⟩))
    · exact .inr (.inr (.inr (.inl ⟨hnone, rfl⟩)))
    · exact .inr (.inr (.inr (.inr (.inl ⟨hblank, rfl⟩))))
    · exact .inr (.inr (.inr (.inr (.inr (.inl ⟨_, _, hq, ⟨hmissing, hconsumed⟩, rfl⟩)))))
    · exact .inr (.inr (.inr (.inr (.inr (.inr ⟨_, hrefused, rfl⟩)))))

/-- Nothing is wrong with a configuration exactly if it is usable. -/
theorem usable_iff : d.Usable ↔ ∀ fault, ¬ d.Faulty fault := by
  constructor
  · rintro ⟨hdecrease, hreplicas, hinterval, htimeout, happlication, hrates, p, hp⟩ fault hfaulty
    cases hfaulty with
    | decrease unfit => exact unfit hdecrease
    | noReplicas none => omega
    | noInterval none => omega
    | noCallTimeout none => omega
    | blankApplication blank => exact happlication blank
    | missingRate written consumed missing =>
      exact Option.isSome_iff_ne_none.mp (hrates _ _ written consumed) missing
    | wiring refused => cases hp.symm.trans refused
  · intro h
    refine ⟨not_not.mp fun hunfit ↦ h _ (.decrease hunfit),
      Nat.one_le_iff_ne_zero.mpr fun hnone ↦ h _ (.noReplicas hnone),
      Nat.one_le_iff_ne_zero.mpr fun hnone ↦ h _ (.noInterval hnone),
      Nat.one_le_iff_ne_zero.mpr fun hnone ↦ h _ (.noCallTimeout hnone),
      fun hblank ↦ h _ (.blankApplication hblank),
      fun queue q hq hconsumed ↦ Option.isSome_iff_ne_none.mpr
        fun hmissing ↦ h _ (.missingRate hq hconsumed hmissing), ?_⟩
    cases hp : Pipeline.ofWiring d.wiring with
    | error refusal => exact absurd (.wiring hp) (h _)
    | ok p => exact ⟨p, rfl⟩

/-- The missing rates are listed in name order, and a refusal of the queues comes last. -/
theorem orderedFrom_missingRates_append : OrderedFrom 7 (d.missingRates ++ d.wiringFaults) := by
  constructor
  · refine List.pairwise_append.mpr ⟨?_, ?_, ?_⟩
    · refine d.queues.ordered.filterMap _ fun e e' hlt fault hfault later hlater ↦ ?_
      obtain ⟨-, hfault⟩ := Option.ite_none_right_eq_some.mp hfault
      obtain ⟨-, hlater⟩ := Option.ite_none_right_eq_some.mp hlater
      cases hfault
      cases hlater
      exact .inr ⟨rfl, hlt⟩
    · rw [wiringFaults]
      split
      · exact List.pairwise_singleton ..
      · exact .nil
    · intro fault hfault later hlater
      obtain ⟨_, _, -, -, rfl⟩ := mem_missingRates.mp hfault
      obtain ⟨_, -, rfl⟩ := mem_wiringFaults.mp hlater
      exact .inl (Nat.lt_succ_self 7)
  · intro fault hfault
    rcases List.mem_append.mp hfault with hfault | hfault
    · obtain ⟨_, _, -, -, rfl⟩ := mem_missingRates.mp hfault
      exact Nat.le_refl _
    · obtain ⟨_, -, rfl⟩ := mem_wiringFaults.mp hfault
      exact Nat.le_succ _

theorem pairwise_faults : d.faults.Pairwise ConfigFault.Precedes := by
  have h : OrderedFrom 2 d.faults :=
    .note rfl (.note rfl (.note rfl (.note rfl (.note rfl orderedFrom_missingRates_append))))
  exact h.ordered

/-- The checks that do not look at the queues' rates and edges, followed by those that do. -/
theorem head?_faults : d.faults.head? = d.fault?.or d.wiringFaults.head? := by
  simp only [faults, head?_note, List.head?_append, missingRates, List.head?_filterMap, fault?,
    Strategy.fault?, ControlLoop.fault?]
  split <;> [rfl; skip]
  split <;> [rfl; skip]
  split <;> [rfl; skip]
  split <;> [rfl; skip]
  split <;> rfl

/-- **The checks find the first fault** of all that is wrong. -/
theorem check_eq_error_iff : d.check = .error fault ↔ d.faults.head? = some fault := by
  rw [head?_faults, check]
  cases d.fault? with
  | some first => simp
  | none =>
    rw [Option.none_or, wiringFaults]
    cases Pipeline.ofWiring d.wiring <;> simp

/-- The fault that is reported is one that precedes all others. -/
theorem check_eq_error_iff_faulty :
    d.check = .error fault ↔
      d.Faulty fault ∧ ∀ other, d.Faulty other → other = fault ∨ fault.Precedes other := by
  simp only [check_eq_error_iff, ConfigFault.head?_eq_some_iff pairwise_faults, mem_faults]

/-- The checks accept the usable configurations. -/
theorem exists_check_eq_ok_iff : (∃ c, d.check = .ok c) ↔ d.Usable := by
  rw [usable_iff]
  cases hcheck : d.check with
  | ok c =>
    refine iff_of_true ⟨c, rfl⟩ fun fault hfaulty ↦ ?_
    obtain ⟨first, hfirst⟩ : ∃ first, d.faults.head? = some first :=
      Option.isSome_iff_exists.mp
        (List.isSome_head?.mpr (List.ne_nil_of_mem (mem_faults.mpr hfaulty)))
    cases hcheck.symm.trans (check_eq_error_iff.mpr hfirst)
  | error fault =>
    exact iff_of_false nofun fun h ↦ h fault (check_eq_error_iff_faulty.mp hcheck).1

/-- What passes the checks is kept as written, but for the blanks around the names of the
application and the services. -/
theorem eq_of_check_eq_ok {c : Config R} (h : d.check = .ok c) :
    c.application = Text.trim d.application ∧ c.strategy = d.strategy ∧
      c.controlLoop = d.controlLoop ∧ c.deployments = d.deployments ∧ c.broker = d.broker ∧
      c.pipeline.wiring = d.wiring := by
  rw [check] at h
  split at h
  · cases h
  · split at h
    · cases h
    · rename_i p hp
      cases h
      exact ⟨rfl, rfl, rfl, rfl, rfl, (Pipeline.ofWiring_eq_ok_iff.mp hp).2⟩

end Faults

/-! ### The services of a configuration -/

/-- The bindings of a configuration: a service loses the blanks around it, and a rate that is not
given is zero. -/
theorem get?_wiring (d : Written R) (queue : String) :
    d.wiring.get? queue = (d.queues.get? queue).map fun q ↦
      ⟨Text.trim q.service, q.consumptionRate.getD 0, q.produces⟩ := by
  rw [wiring, Table.get?_map]
  rfl

/-- A service has a name without blanks at its ends. -/
theorem ne_empty_and_trimmed_of_mem_services {d : Written R} {service : String}
    (h : service ∈ d.wiring.services) : service ≠ "" ∧ Text.Trimmed service := by
  obtain ⟨queue, hqueue⟩ := Wiring.mem_services.mp h
  obtain ⟨hservice, hnamed⟩ := Wiring.isSome_input?_iff.mp hqueue
  rw [get?_wiring, Option.map_map, Option.map_eq_some_iff] at hservice
  obtain ⟨q, -, rfl⟩ := hservice
  rw [Function.comp_apply] at hnamed ⊢
  refine ⟨?_, Text.trimmed_trim q.service⟩
  rintro hempty
  rw [hempty] at hnamed
  cases hnamed

end Written

/-! ### Texts -/

theorem ofString_eq_check {s : String} {d : Written Float}
    (h : (Toml.parse? s).bind Written.ofToml? = some d) : ofString s = d.check := by
  rw [ofString, h]

/-- **The usable configurations are accepted, and of the others the first fault is reported.** Let
a text be TOML that writes a configuration. It is accepted if and only if that configuration is
usable: the share to be drained is finite and not negative, a replica, some time between two ticks
and some time for a call are granted, the application has a label, each queue of a service has a
consumption rate, and the queues form a pipeline. The text is refused with exactly the fault that
precedes all others. What is accepted is as written, but for the blanks around the label and the
services, and with zero for the rates that are not given. So no service of it is empty or has blanks
at its ends, and queues whose services differ only in the blanks around them have the same
service. -/
theorem ofString_exact {s : String} {d : Written Float}
    (h : (Toml.parse? s).bind Written.ofToml? = some d) :
    ((∃ c, ofString s = .ok c) ↔ d.Usable) ∧
      (∀ fault, ofString s = .error fault ↔
        d.Faulty fault ∧ ∀ other, d.Faulty other → other = fault ∨ fault.Precedes other) ∧
      ∀ c, ofString s = .ok c →
        (c.application = Text.trim d.application ∧ c.strategy = d.strategy ∧
          c.controlLoop = d.controlLoop ∧ c.deployments = d.deployments ∧ c.broker = d.broker ∧
          c.pipeline.wiring = d.wiring) ∧
        (∀ queue, c.pipeline.wiring.get? queue = (d.queues.get? queue).map fun q ↦
          ⟨Text.trim q.service, q.consumptionRate.getD 0, q.produces⟩) ∧
        (∀ service ∈ c.pipeline.wiring.services, service ≠ "" ∧ Text.Trimmed service) ∧
        ∀ queue queue' q q' core, d.queues.get? queue = some q → d.queues.get? queue' = some q' →
          Text.Surrounds q.service core → Text.Surrounds q'.service core →
            (c.pipeline.wiring.get? queue).map Binding.service =
              (c.pipeline.wiring.get? queue').map Binding.service := by
  rw [ofString_eq_check h]
  refine ⟨Written.exists_check_eq_ok_iff, fun fault ↦ Written.check_eq_error_iff_faulty,
    fun c hc ↦ ?_⟩
  have hkept := Written.eq_of_check_eq_ok hc
  have hwiring : c.pipeline.wiring = d.wiring := hkept.2.2.2.2.2
  refine ⟨hkept, fun queue ↦ ?_, fun service hservice ↦ ?_,
    fun queue queue' q q' core hq hq' hcore hcore' ↦ ?_⟩
  · rw [hwiring, Written.get?_wiring]
  · rw [hwiring] at hservice
    exact Written.ne_empty_and_trimmed_of_mem_services hservice
  · have hsame : Text.trim q.service = Text.trim q'.service :=
      hcore.trim_eq.trans hcore'.trim_eq.symm
    rw [hwiring, Written.get?_wiring, Written.get?_wiring, hq, hq']
    exact congrArg some hsame

/-- A text that allows no replica and gives no rate for its queue. -/
def withoutReplicas : String :=
  "strategy = [true, true, true, 1, 0, 0]\n[queues.in]\nservice = ' reader '"

/-- Of the two faults the missing replicas are reported. -/
theorem ofString_withoutReplicas :
    ∃ d, (Toml.parse? withoutReplicas).bind Written.ofToml? = some d ∧
      d.Faulty (.missingRate "in") ∧ ofString withoutReplicas = .error .noReplicas ∧
        d.Faulty .noReplicas ∧ ∀ other, d.Faulty other →
          other = .noReplicas ∨ ConfigFault.Precedes .noReplicas other := by
  have hqueue : (((Toml.parse? withoutReplicas).bind Written.ofToml?).bind
      fun d ↦ d.queues.get? "in").map (fun q ↦ (Text.trim q.service, q.consumptionRate.isNone)) =
        some ("reader", true) := by decide +kernel
  obtain ⟨q, hq, hreader⟩ := Option.map_eq_some_iff.mp hqueue
  obtain ⟨d, hd, hq⟩ := Option.bind_eq_some_iff.mp hq
  obtain ⟨hservice, hmissing⟩ := Prod.mk.inj hreader
  have herror : ofString withoutReplicas = .error .noReplicas := by
    have h : (match ofString withoutReplicas with
        | .error .noReplicas => true
        | _ => false) = true := by decide +kernel
    generalize ofString withoutReplicas = outcome at h ⊢
    split at h
    · rfl
    · cases h
  refine ⟨d, hd, .missingRate hq ?_ (Option.isNone_iff_eq_none.mp hmissing), herror,
    ((ofString_exact hd).2.1 .noReplicas).mp herror⟩
  rw [hservice]
  decide

end Config

end QueueScaler
