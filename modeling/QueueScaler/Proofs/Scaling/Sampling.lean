import Mathlib
import QueueScaler.Proofs.Pipeline.Plan
import QueueScaler.Scaling.Tick
/-!
# Samples and blind services

One depth query is made for each managed queue. Whatever the order in which the outcomes come in,
the sample holds the depth of every queue whose query succeeded, and the queues of all other queries
have failed. A service is blind exactly when a failed queue feeds it.

## Main definitions

* `Wiring.Answered`: the outcomes of a round of queries, one for each managed queue.
* `Autoscaler.relay`, `Encounter.relay`: two services in a row, and what their ticks meet.

## Main results

* `Arrival.filter_name_of_mem`, `Arrival.filter_name_of_perm`: the outcome for a name, in any order
  of the outcomes.
* `Wiring.exists_answered`: any outcomes of such a round are told by depths and failures.
* `Wiring.Answered.get?_depths`, `Wiring.Answered.mem_failed`: the sample of a round of queries.
* `Autoscaler.mem_blindServices`: the blind services.
-/

namespace QueueScaler

variable {R : Type}

/-! ### Outcomes by name -/

namespace Arrival

variable {α : Type} {c : Arrival α} {arrivals arrivals' : List (Arrival α)}

/-- Of outcomes for different names, one has the name of a given one. -/
theorem filter_name_of_mem (hnodup : (arrivals.map name).Nodup) (hc : c ∈ arrivals) :
    arrivals.filter (·.name = c.name) = [c] := by
  induction arrivals with
  | nil => exact absurd hc List.not_mem_nil
  | cons b arrivals ih =>
    obtain ⟨hb, hnodup⟩ := List.nodup_cons.mp hnodup
    rw [List.filter_cons]
    rcases List.mem_cons.mp hc with rfl | hc
    · rw [if_pos (decide_eq_true rfl), List.filter_eq_nil_iff.mpr fun d hd hname ↦ ?_]
      exact hb (of_decide_eq_true hname ▸ List.mem_map_of_mem hd)
    · rw [if_neg ?_, ih hnodup hc]
      exact fun hname ↦ hb (of_decide_eq_true hname ▸ List.mem_map_of_mem hc)

/-- Without an outcome for a name there is nothing to be found for it. -/
theorem filter_name_of_not_mem {q : String} (hq : q ∉ arrivals.map name) :
    arrivals.filter (·.name = q) = [] :=
  List.filter_eq_nil_iff.mpr fun _ hd hname ↦
    hq (of_decide_eq_true hname ▸ List.mem_map_of_mem hd)

/-- What is found for a name does not depend on the order of the outcomes. -/
theorem filter_name_of_perm (hnodup : (arrivals.map name).Nodup) (h : arrivals'.Perm arrivals)
    (q : String) : arrivals'.filter (·.name = q) = arrivals.filter (·.name = q) := by
  by_cases hq : q ∈ arrivals.map name
  · obtain ⟨c, hc, rfl⟩ := List.mem_map.mp hq
    rw [filter_name_of_mem hnodup hc,
      filter_name_of_mem ((h.map name).nodup_iff.mpr hnodup) (h.mem_iff.mpr hc)]
  · rw [filter_name_of_not_mem hq, filter_name_of_not_mem (mt (h.map name).mem_iff.mp hq)]

end Arrival

/-! ### One query for each queue -/

/-- Whether outcomes that came in are those of one query for each managed queue, where `depth` tells
the depth of each queue and `failure` the queries that failed, and how. -/
structure Wiring.Answered (w : Wiring R) (depth : String → Nat)
    (failure : String → Option CallFailure) (samples : List (Arrival Nat)) : Prop where
  /-- One outcome for each managed queue, in any order. -/
  complete : (samples.map Arrival.name).Perm w.keys
  /-- A query comes back with the depth unless it fails. -/
  answers : ∀ a ∈ samples, a.answer =
    match failure a.name with
    | none => .ok (depth a.name)
    | some reason => .error reason

namespace Wiring

variable {w : Wiring R} {depth : String → Nat} {failure : String → Option CallFailure}
  {samples : List (Arrival Nat)} {q : String}

theorem Answered.filter_name (h : w.Answered depth failure samples) (hq : q ∈ w) :
    ∃ moment, samples.filter (·.name = q) = [⟨q, match failure q with
      | none => .ok (depth q)
      | some reason => .error reason, moment⟩] := by
  obtain ⟨a, ha, rfl⟩ := List.mem_map.mp (h.complete.mem_iff.mpr (Table.mem_keys_iff.mpr hq))
  refine ⟨a.moment,
    (Arrival.filter_name_of_mem (h.complete.nodup_iff.mpr w.nodup_keys) ha).trans ?_⟩
  rw [← h.answers a ha]

theorem Answered.filter_name_of_not_mem (h : w.Answered depth failure samples) (hq : q ∉ w) :
    samples.filter (·.name = q) = [] :=
  Arrival.filter_name_of_not_mem fun hq' ↦ hq (Table.mem_keys_iff.mp (h.complete.mem_iff.mp hq'))

end Wiring

/-! ### The sample -/

namespace Sample

variable {q : String}

theorem get?_depths_foldl_note (samples : List (Arrival Nat)) (s : Sample) (q : String) :
    (samples.foldl note s).depths.get? q = (samples.filter (·.name = q)).foldl
      (fun depth a ↦ match a.answer with
        | .ok n => some n
        | .error _ => depth) (s.depths.get? q) := by
  refine Arrival.view_foldl (fun s : Sample ↦ s.depths.get? q) (fun s a hne ↦ ?_)
    (fun s a heq ↦ ?_) samples s
  · simp only [note]
    split
    · exact (Table.get?_insert ..).trans (if_neg (Ne.symm hne))
    · rfl
    · rfl
  · obtain ⟨name, answer, moment⟩ := a
    subst heq
    rcases answer with (_ | _ | _) | n
    · rfl
    · rfl
    · rfl
    · exact Table.get?_insert_self ..

theorem get?_failed_foldl_note (samples : List (Arrival Nat)) (s : Sample) (q : String) :
    (samples.foldl note s).failed.get? q = (samples.filter (·.name = q)).foldl
      (fun failed a ↦ match a.answer with
        | .ok _ => failed
        | .error .aborted => failed
        | .error failure => some failure) (s.failed.get? q) := by
  refine Arrival.view_foldl (fun s : Sample ↦ s.failed.get? q) (fun s a hne ↦ ?_)
    (fun s a heq ↦ ?_) samples s
  · simp only [note]
    split
    · rfl
    · rfl
    · exact (Table.get?_insert ..).trans (if_neg (Ne.symm hne))
  · obtain ⟨name, answer, moment⟩ := a
    subst heq
    rcases answer with (_ | _ | _) | n
    · exact Table.get?_insert_self ..
    · exact Table.get?_insert_self ..
    · rfl
    · rfl

theorem depths_noteMissing (s : Sample) (q : String) : (s.noteMissing q).depths = s.depths := by
  rw [noteMissing]
  split <;> rfl

theorem depths_close (s : Sample) (queues : List String) : (s.close queues).depths = s.depths := by
  rw [close]
  induction queues generalizing s with
  | nil => rfl
  | cons q queues ih => rw [List.foldl_cons, ih, depths_noteMissing]

theorem mem_failed_noteMissing {s : Sample} {queue : String} :
    q ∈ (s.noteMissing queue).failed ↔ q ∈ s.failed ∨ q = queue ∧ q ∉ s.depths := by
  rw [noteMissing]
  split
  · grind
  · rw [Table.mem_insert]
    grind

theorem mem_failed_close {s : Sample} {queues : List String} :
    q ∈ (s.close queues).failed ↔ q ∈ s.failed ∨ q ∈ queues ∧ q ∉ s.depths := by
  rw [close]
  induction queues generalizing s with
  | nil => simp
  | cons queue queues ih =>
    rw [List.foldl_cons, ih, mem_failed_noteMissing, depths_noteMissing, List.mem_cons]
    tauto

end Sample

namespace Wiring.Answered

variable [Rate R] {a : Autoscaler R} {depth : String → Nat}
  {failure : String → Option CallFailure} {samples : List (Arrival Nat)} {q : String}

/-- **A sample holds the depths of the queues whose query succeeded.** -/
theorem get?_depths (h : a.pipeline.wiring.Answered depth failure samples) (q : String) :
    (a.sample samples).depths.get? q =
      if q ∈ a.pipeline.wiring ∧ failure q = none then some (depth q) else none := by
  rw [Autoscaler.sample, Sample.depths_close, Sample.get?_depths_foldl_note]
  by_cases hq : q ∈ a.pipeline.wiring
  · obtain ⟨moment, hfilter⟩ := h.filter_name hq
    rw [hfilter]
    cases hf : failure q <;> simp [hq]
  · rw [h.filter_name_of_not_mem hq, if_neg fun h ↦ hq h.1]
    rfl

/-- The origin rates are those of the consumed queues whose query succeeded. -/
theorem get?_origins (h : a.pipeline.wiring.Answered depth failure samples) (q : String) :
    (a.origins (a.sample samples).depths).get? q =
      if q ∈ a.pipeline.wiring.consumed ∧ failure q = none then
        some (Rate.ofCount (depth q) * a.strategy.decreasePerMinute)
      else none := by
  rw [Autoscaler.origins, get?_originRates, h.get?_depths]
  by_cases hq : q ∈ a.pipeline.wiring.consumed
  · obtain ⟨b, hb⟩ := Table.mem_iff_get?.mp hq
    rw [hb]
    cases failure q <;> simp [hq, mem_of_mem_consumed hq]
  · rw [Table.not_mem_iff_get?.mp hq]
    simp [hq]

/-- **The queues of all other queries have failed,** whether the query said so or died. -/
theorem mem_failed (h : a.pipeline.wiring.Answered depth failure samples) :
    q ∈ (a.sample samples).failed ↔ q ∈ a.pipeline.wiring ∧ failure q ≠ none := by
  have hdepths := h.get?_depths q
  rw [Autoscaler.sample, Sample.depths_close] at hdepths
  rw [Autoscaler.sample, Sample.mem_failed_close, Table.mem_keys_iff, Table.mem_iff_get?,
    Table.not_mem_iff_get?, hdepths, Sample.get?_failed_foldl_note]
  by_cases hq : q ∈ a.pipeline.wiring
  · obtain ⟨moment, hfilter⟩ := h.filter_name hq
    rw [hfilter]
    rcases hf : failure q with _ | (_ | _ | _) <;> simp [hq]
  · rw [h.filter_name_of_not_mem hq]
    simp [hq]

end Wiring.Answered

/-! ### A relay -/

/-- Two services in a row: a reader drains one queue and writes to another, which a writer drains. -/
def Autoscaler.relay : Autoscaler ℚ where
  pipeline :=
    { wiring := .ofList
        [("in", ⟨"reader", 60, .singleton "out" (1 / 2)⟩), ("out", ⟨"writer", 30, ∅⟩)]
      valid := by cbv }
  strategy :=
    { exportMetrics := true, scalingEnabled := true, followUpEnabled := true
      decreasePerMinute := 1, stabilizationSeconds := 300, maxReplicas := 8 }

/-- What a relay that has not ticked yet remembers, given when its services were scaled up. -/
def Memory.relay (history : History) : Memory ℚ := { gauges := ⟨"relay", ∅⟩, history }

/-- Encounters of the relay: what is known of the two depths, and one listing for both services. -/
def Encounter.relay (input output : Answer Nat) (replicas : Nat) (now : Instant)
    (commands : List (Arrival Unit)) : Encounter where
  startedAt := now
  samples := [⟨"out", output, now⟩, ⟨"in", input, now⟩]
  listing := .ok (.ofList [("reader", replicas), ("writer", replicas)])
  decidedAt := now
  commands := commands

/-! ### Blind services -/

namespace Autoscaler

variable [Rate R] {a : Autoscaler R} {failed : Table CallFailure} {q s : String}

theorem mem_addBlindQueues {met : NameSet} {o : String} :
    q ∈ a.addBlindQueues met o ↔ q ∈ met ∨ q = o ∨
      a.strategy.followUpEnabled = true ∧ a.pipeline.wiring.Reaches o q := by
  rw [addBlindQueues]
  split
  · rw [NameSet.mem_union, NameSet.mem_add, Wiring.mem_downstream]
    tauto
  · rw [NameSet.mem_add]
    tauto

theorem mem_blindQueues :
    q ∈ a.blindQueues failed ↔
      ∃ o ∈ failed, q = o ∨ a.strategy.followUpEnabled = true ∧ a.pipeline.wiring.Reaches o q := by
  rw [blindQueues, Table.mem_foldl (f := a.addBlindQueues) fun _ _ ↦ mem_addBlindQueues,
    or_iff_right (Table.not_mem_empty q)]
  simp only [Table.mem_keys_iff]

theorem mem_addConsumer {services : NameSet} {queue : String} :
    s ∈ a.addConsumer services queue ↔
      s ∈ services ∨ (a.pipeline.wiring.input? s queue).isSome := by
  rw [Option.isSome_iff_exists, addConsumer]
  simp only [Wiring.input?_eq_some]
  cases a.pipeline.wiring.get? queue with
  | none => simp
  | some b =>
    simp only [Option.some.injEq, exists_eq_left']
    by_cases hc : b.hasConsumer = true
    · rw [if_pos hc, NameSet.mem_add, and_iff_right hc, or_comm, eq_comm]
    · rw [if_neg hc, or_iff_left fun h ↦ hc h.1]

/-- **The blind services** are those that a failed queue feeds. -/
theorem mem_blindServices :
    s ∈ a.blindServices failed ↔
      ∃ o ∈ failed, a.pipeline.wiring.Feeds a.strategy.followUpEnabled o s := by
  rw [blindServices, Table.mem_foldl (f := a.addConsumer) fun _ _ ↦ mem_addConsumer,
    or_iff_right (Table.not_mem_empty s)]
  simp only [Table.mem_keys_iff, mem_blindQueues]
  constructor
  · rintro ⟨q, ⟨o, ho, hq⟩, hs⟩
    exact ⟨o, ho, q, hs, hq.imp_left Eq.symm⟩
  · rintro ⟨o, ho, q, hs, hq⟩
    exact ⟨q, ⟨o, ho, hq.imp_left Eq.symm⟩, hs⟩

end Autoscaler

/-- A service is not blind if every queue that feeds it was sampled. -/
theorem Wiring.Answered.not_mem_blindServices [Rate R] {a : Autoscaler R} {depth : String → Nat}
    {failure : String → Option CallFailure} {samples : List (Arrival Nat)} {s : String}
    (h : a.pipeline.wiring.Answered depth failure samples) :
    s ∉ a.blindServices (a.sample samples).failed ↔
      ∀ q, a.pipeline.wiring.Feeds a.strategy.followUpEnabled q s → failure q = none := by
  simp only [Autoscaler.mem_blindServices, h.mem_failed, not_exists, not_and]
  constructor
  · exact fun hnone q hq ↦ not_not.mp fun hf ↦ hnone q ⟨hq.mem, hf⟩ hq
  · exact fun hall q hf hq ↦ hf.2 (hall q hq)

end QueueScaler
