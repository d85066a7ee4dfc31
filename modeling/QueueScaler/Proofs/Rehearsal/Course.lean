import QueueScaler.Proofs.Scaling.Convergence
import QueueScaler.Rehearsal.Stage
/-!
# Rehearsed ticks

What a tick meets in a rehearsal comes from its surroundings, disturbed or not: a query that is
answered tells the depth of its queue, a listing that is answered shows the cluster, and the cluster
changes only by commands of the tick. So all that holds of ticks over a cluster that nobody else
changes holds of rehearsals.

## Main definitions

* `Rehearsal.Course`: a rehearsal of several ticks, with whatever disturbances in each of them.

## Main results

* `Rehearsal.Stage.ticksOver`: a rehearsed tick is one over a cluster that nobody else changes.
* `Rehearsal.Course.exists_arrival`: replica counts settle in a rehearsal.
-/

namespace QueueScaler

namespace Rehearsal

variable {R : Type} [Rate R]

/-! ### Disturbed calls -/

theorem reported_eq_ok {α : Type} {x : α} {outcome : Except String α} :
    reported outcome = .ok x ↔ outcome = .ok x := by
  cases outcome <;> simp [reported]

namespace Disturbances

variable {d : Disturbances} {limit : Span} {queues : Queues} {c : Cluster} {queue : String}

/-- A query that is answered tells the depth of its queue. -/
theorem eq_depth_of_query {n : Nat} (h : d.query limit queues queue = .ok n) :
    n = queues.depths.getD queue 0 := by
  have hanswer := Answer.of_within h
  split at hanswer
  · cases hanswer
  · rw [reported_eq_ok, Queues.depth] at hanswer
    split at hanswer
    · cases hanswer
    · exact (Except.ok.inj hanswer).symm

/-- A listing that is answered shows the cluster. -/
theorem eq_replicas_of_list {counts : Table Nat} (h : d.list limit c = .ok counts) :
    counts = c.replicas := by
  have hanswer := reported_eq_ok.mp (Answer.of_within h)
  rw [Cluster.listing] at hanswer
  split at hanswer
  · cases hanswer
  · exact (Except.ok.inj hanswer).symm

/-- A command is carried out or not, and touches no other service. -/
theorem replicas_command (d : Disturbances) (limit : Span) (sink : Sink) (c : Cluster)
    (service : String) (n : Nat) :
    (d.command limit sink c service n).2.1.replicas = c.replicas ∨
      (d.command limit sink c service n).2.1.replicas = c.replicas.insert service n := by
  cases sink with
  | log => exact .inl rfl
  | cluster =>
    simp only [command, Cluster.scale]
    split_ifs
    · exact .inl rfl
    · exact .inl rfl
    · exact .inl rfl
    · exact .inr rfl

end Disturbances

/-! ### One tick -/

namespace Stage

/-- A round of commands gives each service what it is commanded to, or leaves it as it is. -/
theorem get?_replicas_foldl_send (commands : List (String × Nat)) (r : Round R) (s : String) :
    (commands.foldl Round.send r).stage.cluster.replicas.get? s =
        r.stage.cluster.replicas.get? s ∨
      ∃ n, (s, n) ∈ commands ∧
        (commands.foldl Round.send r).stage.cluster.replicas.get? s = some n := by
  induction commands generalizing r with
  | nil => exact .inl rfl
  | cons command commands ih =>
    rw [List.foldl_cons]
    rcases ih (r.send command) with hkept | ⟨n, hmem, hn⟩
    · rw [hkept]
      rcases r.stage.disturbances.replicas_command r.stage.callLimit r.stage.sink r.stage.cluster
        command.1 command.2 with hsame | hset
      · exact .inl (congrArg (Table.get? · s) hsame)
      · have hsent : (r.send command).stage.cluster.replicas.get? s =
            if s = command.1 then some command.2 else r.stage.cluster.replicas.get? s :=
          (congrArg (Table.get? · s) hset).trans (Table.get?_insert ..)
        rw [hsent]
        by_cases hs : s = command.1
        · exact .inr ⟨command.2, hs ▸ List.mem_cons_self, if_pos hs⟩
        · exact .inl (if_neg hs)
    · exact .inr ⟨n, List.mem_cons_of_mem _ hmem, hn⟩

/-- Queries leave traces in the disturbances and in their own count, and nowhere else. -/
theorem exists_foldl_countQuery (queues : List String) (s : Stage R) :
    ∃ disturbances queries, queues.foldl countQuery s = { s with disturbances, queries } := by
  induction queues generalizing s with
  | nil => exact ⟨s.disturbances, s.queries, rfl⟩
  | cons q queues ih => exact ih _

/-- **A rehearsed tick** is one over a cluster that nobody else changes, with the depths that are
set. -/
theorem ticksOver (s : Stage R) :
    s.autoscaler.TicksOver (fun q ↦ s.queues.depths.getD q 0) s.memory s.encounter.1
      s.cluster.replicas s.tick.2.1.cluster.replicas where
  answered := by
    refine ⟨fun q ↦ (s.disturbances.query s.callLimit s.queues q).failure?, ?_, ?_⟩
    · have hnames : s.encounter.1.samples.map Arrival.name = s.queueNames :=
        (List.map_map ..).trans (List.map_id _)
      exact .of_eq hnames
    · rintro _ harrival
      obtain ⟨q, -, rfl⟩ := List.mem_map.mp harrival
      show s.disturbances.query s.callLimit s.queues q = _
      cases hanswer : s.disturbances.query s.callLimit s.queues q with
      | error failure => rfl
      | ok n => exact congrArg Except.ok (Disturbances.eq_depth_of_query hanswer)
  listed counts h := by
    obtain ⟨_, _, hcount⟩ := exists_foldl_countQuery s.queueNames s.read
    have hlisting : Disturbances.list _ _ (s.queueNames.foldl countQuery s.read).cluster =
      .ok counts := h
    rw [Disturbances.eq_replicas_of_list hlisting, hcount]
    rfl
  changed service := by
    obtain ⟨disturbances, queries, hcount⟩ := exists_foldl_countQuery s.read.queueNames s.read
    rw [Autoscaler.commands_tick]
    simp only [tick, encounter, hcount]
    exact get?_replicas_foldl_send _ _ _

end Stage

/-! ### Rehearsals of several ticks -/

/-- A rehearsal of several ticks. Between two of them anything may change but the depths that are
set, the replicas, and what is remembered. -/
structure Course (a : Autoscaler R) (depth : String → Nat) (length : Nat) where
  /-- The autoscaler and its surroundings before each tick. -/
  stage : Nat → Stage R
  /-- It is the same autoscaler all the time. -/
  autoscaler : ∀ i < length, (stage i).autoscaler = a
  /-- The queues keep their depths. -/
  depths : ∀ i < length, ∀ q, (stage i).queues.depths.getD q 0 = depth q
  /-- A tick hands on what it remembers. -/
  remembers : ∀ i < length, (stage (i + 1)).memory = (stage i).tick.2.1.memory
  /-- A tick hands on the replicas. -/
  keeps : ∀ i < length, (stage (i + 1)).cluster.replicas = (stage i).tick.2.1.cluster.replicas

namespace Course

variable {a : Autoscaler R} {depth : String → Nat} {length : Nat} (course : Course a depth length)

theorem after_eq_memory {i : Nat} (hi : i ≤ length) :
    a.after (course.stage 0).memory ((List.range i).map fun j ↦ (course.stage j).encounter.1) =
      (course.stage i).memory := by
  induction i with
  | zero => rfl
  | succ i ih =>
    rw [course.remembers i hi, Stage.tick, course.autoscaler i hi, ← ih (Nat.le_of_succ_le hi),
      Autoscaler.after, List.range_succ, List.map_append, List.foldl_append]
    rfl

/-- A rehearsal is a run of ticks over a cluster that nobody else changes. -/
def run : a.Run depth length where
  start := (course.stage 0).memory
  encounter i := (course.stage i).encounter.1
  replicas i := (course.stage i).cluster.replicas
  ticks i hi := by
    have htick := (course.stage i).ticksOver
    rw [course.autoscaler i hi, funext (course.depths i hi), ← course.keeps i hi] at htick
    rw [course.after_eq_memory hi.le]
    exact htick

/-- **Replica counts settle in a rehearsal,** whatever disturbs its calls: the count of a service
changes at most once, namely to its destination. -/
theorem exists_arrival {s : String} {n required : Nat}
    (hcurrent : (course.stage 0).cluster.replicas.get? s = some n)
    (hrequired : a.required? (a.trueDepths depth) s = some required) :
    ∃ k, ∀ i ≤ length, (course.stage i).cluster.replicas.get? s =
      some (if i < k then n else a.destination n required) :=
  course.run.exists_arrival hcurrent hrequired length.le_refl

end Course

end Rehearsal

end QueueScaler
