import QueueScaler.Proofs.Scaling.Isolation
/-!
# Ticks that come to nothing

A tick hands on to the next ones what it remembers and what its commands changed. A tick is futile
if its replicas could not be listed, or if none of its commands was acknowledged or carried out.
Such a tick hands on nothing that a decision depends on: the run without it takes the same course.
What stays of it are the gauges that it set, each until its queue is sampled again.

## Main definitions

* `Situation`: what a tick finds.
* `Turn`: what a tick meets, and which of its commands are carried out.
* `Encounter.Samples`, `Turn.Samples`: whether the query for a queue succeeds.
* `Autoscaler.turn`, `Autoscaler.play`, `Autoscaler.reports`: one tick, a run of ticks, and what its
  ticks return.
* `Autoscaler.Futile`: whether a tick comes to nothing.
* `Situation.Agrees`: whether two situations differ in gauges and the last report alone.

## Main results

* `Autoscaler.fst_tick_congr`: a report depends on what is remembered through the history alone.
* `Situation.Agrees.turn`, `Situation.Agrees.play`: from agreeing situations, a tick and a run of
  ticks lead to agreeing situations.
* `Autoscaler.Futile.agrees`: a futile tick leads to a situation that agrees with the one it found.
* `Autoscaler.reports_eraseIdx`: a run without one of its futile ticks.
-/

namespace QueueScaler

variable {R : Type} {q : String}

/-- What a tick finds. -/
structure Situation (R : Type) where
  /-- What is remembered. -/
  memory : Memory R
  /-- The replicas that are there. -/
  replicas : Table Nat

/-- What a tick meets, and what becomes of its commands. -/
structure Turn where
  /-- What the tick meets. -/
  encounter : Encounter
  /-- The services whose command is carried out, whatever is heard of it. -/
  carriedOut : List String

/-- Whether the query for a queue succeeds. -/
def Encounter.Samples (e : Encounter) (queue : String) : Prop :=
  ∃ c ∈ e.samples, c.name = queue ∧ ∃ n, c.answer = .ok n

/-- Whether a tick samples a queue. -/
def Turn.Samples (t : Turn) (queue : String) : Prop := t.encounter.Samples queue

/-- The replicas after some commands were carried out. -/
def carryOut (replicas : Table Nat) (commands : List (String × Nat)) : Table Nat :=
  commands.foldl (fun replicas command ↦ replicas.insert command.1 command.2) replicas

namespace Autoscaler

variable [Rate R] (a : Autoscaler R)

/-- One tick: what it leaves to the next one. -/
def turn (s : Situation R) (t : Turn) : Situation R where
  memory := (a.tick s.memory t.encounter).2
  replicas := carryOut s.replicas
    ((a.tick s.memory t.encounter).1.commands.filter (·.1 ∈ t.carriedOut))

/-- A run of ticks. -/
def play (s : Situation R) (ts : List Turn) : Situation R := ts.foldl a.turn s

/-- What the ticks of a run return: a report each, unless they die. -/
def reports (s : Situation R) : List Turn → List (Option (Report R))
  | [] => []
  | t :: ts => a.returned? s.memory t.encounter :: reports (a.turn s t) ts

/-- Whether a tick comes to nothing: the replicas could not be listed, or each of its commands was
neither acknowledged nor carried out. -/
def Futile (s : Situation R) (t : Turn) : Prop :=
  (∃ failure, t.encounter.listing = .error failure) ∨
    ∀ service ∈ (a.tick s.memory t.encounter).1.commands.map Prod.fst,
      t.encounter.acknowledged? service = none ∧ service ∉ t.carriedOut

end Autoscaler

/-- Whether two situations differ in gauges and the last report alone. -/
structure Situation.Agrees (s s' : Situation R) : Prop where
  /-- The same scale-ups are remembered. -/
  history : s.memory.history = s'.memory.history
  /-- The same replicas are there. -/
  replicas : s.replicas = s'.replicas
  /-- The gauges have the same label. -/
  application : s.memory.gauges.application = s'.memory.gauges.application

/-! ### Gauges -/

/-- A gauge that is set does not depend on what it showed before. -/
theorem Gauges.get?_values_foldl_note_congr {samples : List (Arrival Nat)} (g g' : Gauges)
    (h : (∃ c ∈ samples, c.name = q ∧ ∃ n, c.answer = .ok n) ∨ g.values.get? q = g'.values.get? q) :
    (samples.foldl note g).values.get? q = (samples.foldl note g').values.get? q := by
  induction samples generalizing g g' with
  | nil => exact h.resolve_left fun ⟨c, hc, _⟩ ↦ List.not_mem_nil hc
  | cons c samples ih =>
    refine ih (g.note c) (g'.note c) ?_
    rcases h with ⟨d, hd, rfl, n, hn⟩ | hsame
    · rcases List.mem_cons.mp hd with rfl | hd
      · right
        simp only [note, hn, set, Table.get?_insert_self]
      · exact .inl ⟨d, hd, rfl, n, hn⟩
    · right
      rw [note, note]
      split
      · simp only [set, Table.get?_insert, hsame]
      · exact hsame

/-- The gauge of a queue whose query did not succeed stays as it was. -/
theorem Gauges.get?_values_foldl_note_of_failed {samples : List (Arrival Nat)} (g : Gauges)
    (h : ¬ ∃ c ∈ samples, c.name = q ∧ ∃ n, c.answer = .ok n) :
    (samples.foldl note g).values.get? q = g.values.get? q := by
  induction samples generalizing g with
  | nil => rfl
  | cons c samples ih =>
    rw [List.foldl_cons, ih _ fun ⟨d, hd, hq⟩ ↦ h ⟨d, List.mem_cons_of_mem _ hd, hq⟩, note]
    split
    · rename_i n hn
      exact (Table.get?_insert ..).trans
        (if_neg fun hq ↦ h ⟨c, List.mem_cons_self, hq.symm, n, hn⟩)
    · rfl

namespace Autoscaler

variable [Rate R] {a : Autoscaler R} {s s' : Situation R} {t : Turn} {ts : List Turn}

/-! ### One tick -/

/-- What a tick sees and decides depends on what is remembered through the history alone, and so
does what becomes of its commands. -/
theorem fst_tick_congr {m m' : Memory R} (h : m.history = m'.history) (e : Encounter) :
    (a.tick m e).1 = (a.tick m' e).1 ∧ (a.tick m e).2.history = (a.tick m' e).2.history := by
  have hdecisions : a.decisions m e = a.decisions m' e := by rw [decisions, decisions, h]
  simp only [tick, hdecisions, h, and_self]

theorem returned?_congr {m m' : Memory R} (h : m.history = m'.history) (e : Encounter) :
    a.returned? m e = a.returned? m' e := by
  rw [returned?, returned?, (fst_tick_congr h e).1]

/-- A tick that acknowledges none of its commands leaves the history as it was. -/
theorem history_tick_eq {m : Memory R} {e : Encounter}
    (h : ∀ service ∈ (a.tick m e).1.commands.map Prod.fst, e.acknowledged? service = none) :
    (a.tick m e).2.history = m.history := by
  refine Table.ext_get? fun service ↦ ?_
  rw [get?_history_tick]
  split
  · rename_i current target hup
    rw [h service (List.mem_map.mpr ⟨(service, target), Report.mem_commands.mpr ⟨_, hup, rfl⟩, rfl⟩),
      Option.none_or]
  · rfl

/-- A futile tick has acknowledged none of its commands and carried out none, be it that it had
none. -/
theorem Futile.idle (h : a.Futile s t) :
    ∀ service ∈ (a.tick s.memory t.encounter).1.commands.map Prod.fst,
      t.encounter.acknowledged? service = none ∧ service ∉ t.carriedOut := by
  rcases h with hlisting | hidle
  · rw [commands_tick_eq_nil (.inr hlisting)]
    exact fun service hmem ↦ absurd hmem List.not_mem_nil
  · exact hidle

/-- **A futile tick** leads to a situation that agrees with the one it found. -/
theorem Futile.agrees (h : a.Futile s t) : (a.turn s t).Agrees s where
  history := history_tick_eq fun service hmem ↦ (h.idle service hmem).1
  replicas := by
    have hnone : (a.tick s.memory t.encounter).1.commands.filter (·.1 ∈ t.carriedOut) = [] :=
      List.filter_eq_nil_iff.mpr fun command hmem hcarried ↦
        (h.idle command.1 (List.mem_map_of_mem hmem)).2 (of_decide_eq_true hcarried)
    rw [turn, hnone]
    rfl
  application := Gauges.application_foldl_note ..

/-- A tick that dies leaves the last report as it was. -/
theorem lastReport_turn_of_dies (h : t.encounter.dies a.strategy.scalingEnabled = true) :
    (a.turn s t).memory.lastReport = s.memory.lastReport := by
  rw [turn, (a.tick_of_dies s.memory h).2]

theorem get?_gauges_turn_of_not_samples (h : ¬ t.Samples q) :
    (a.turn s t).memory.gauges.values.get? q = s.memory.gauges.values.get? q :=
  Gauges.get?_values_foldl_note_of_failed _ h

/-! ### Runs of ticks -/

theorem reports_append (a : Autoscaler R) (s : Situation R) (ts ts' : List Turn) :
    a.reports s (ts ++ ts') = a.reports s ts ++ a.reports (a.play s ts) ts' := by
  induction ts generalizing s with
  | nil => rfl
  | cons t ts ih => exact congrArg _ (ih (a.turn s t))

theorem length_reports (a : Autoscaler R) (s : Situation R) (ts : List Turn) :
    (a.reports s ts).length = ts.length := by
  induction ts generalizing s with
  | nil => rfl
  | cons t ts ih => exact congrArg (· + 1) (ih (a.turn s t))

theorem play_append (a : Autoscaler R) (s : Situation R) (ts ts' : List Turn) :
    a.play s (ts ++ ts') = a.play (a.play s ts) ts' := List.foldl_append

end Autoscaler

namespace Situation.Agrees

variable [Rate R] {s s' : Situation R}

/-- From agreeing situations a tick leads to agreeing situations, with the same report. -/
theorem turn (h : s.Agrees s') (a : Autoscaler R) (t : Turn) :
    (a.turn s t).Agrees (a.turn s' t) := by
  obtain ⟨hreport, hhistory⟩ := Autoscaler.fst_tick_congr (a := a) h.history t.encounter
  refine ⟨hhistory, ?_, ?_⟩
  · rw [Autoscaler.turn, Autoscaler.turn, hreport, h.replicas]
  · refine (Gauges.application_foldl_note ..).trans ?_
    exact h.application.trans (Gauges.application_foldl_note ..).symm

/-- From agreeing situations a run of ticks leads to agreeing situations. -/
theorem play (h : s.Agrees s') (a : Autoscaler R) (ts : List Turn) :
    (a.play s ts).Agrees (a.play s' ts) := by
  induction ts generalizing s s' with
  | nil => exact h
  | cons t ts ih => exact ih (h.turn a t)

/-- From agreeing situations a run of ticks makes the same reports. -/
theorem reports (h : s.Agrees s') (a : Autoscaler R) (ts : List Turn) :
    a.reports s ts = a.reports s' ts := by
  induction ts generalizing s s' with
  | nil => rfl
  | cons t ts ih =>
    rw [Autoscaler.reports, Autoscaler.reports, ih (h.turn a t),
      Autoscaler.returned?_congr h.history t.encounter]

/-- The last report is the same if it was so before, or after a tick that returns one. -/
theorem lastReport (h : s.Agrees s') (a : Autoscaler R) {ts : List Turn}
    (hlast : s.memory.lastReport = s'.memory.lastReport ∨
      ∃ u ∈ ts, u.encounter.dies a.strategy.scalingEnabled = false) :
    (a.play s ts).memory.lastReport = (a.play s' ts).memory.lastReport := by
  induction ts generalizing s s' with
  | nil => exact hlast.resolve_right fun ⟨u, hu, _⟩ ↦ List.not_mem_nil hu
  | cons t ts ih =>
    have hnext : (a.turn s t).memory.lastReport = (a.turn s' t).memory.lastReport ∨
        ∃ u ∈ ts, u.encounter.dies a.strategy.scalingEnabled = false := by
      rw [Autoscaler.turn, Autoscaler.turn, Autoscaler.lastReport_tick,
        Autoscaler.lastReport_tick, Autoscaler.returned?_congr h.history]
      rcases hlast with hsame | ⟨u, hu, hlives⟩
      · exact .inl (by rw [hsame])
      · rcases List.mem_cons.mp hu with rfl | hu
        · rw [Autoscaler.returned?_of_lives hlives]
          exact .inl rfl
        · exact .inr ⟨u, hu, hlives⟩
    exact ih (h.turn a t) hnext

end Situation.Agrees

namespace Autoscaler

variable [Rate R] {a : Autoscaler R} {start : Situation R} {before later : List Turn} {t : Turn}

/-- The gauge of a queue comes from the last tick that sampled it. -/
theorem get?_gauges_play_congr {s s' : Situation R}
    (h : (∃ u ∈ later, u.Samples q) ∨
      s.memory.gauges.values.get? q = s'.memory.gauges.values.get? q) :
    (a.play s later).memory.gauges.values.get? q =
      (a.play s' later).memory.gauges.values.get? q := by
  induction later generalizing s s' with
  | nil => exact h.resolve_left fun ⟨u, hu, _⟩ ↦ List.not_mem_nil hu
  | cons u later ih =>
    show (a.play (a.turn s u) later).memory.gauges.values.get? q =
      (a.play (a.turn s' u) later).memory.gauges.values.get? q
    refine ih ?_
    rcases h with ⟨v, hv, hq⟩ | hsame
    · rcases List.mem_cons.mp hv with rfl | hv
      · exact .inr (Gauges.get?_values_foldl_note_congr _ _ (.inl hq))
      · exact .inl ⟨v, hv, hq⟩
    · exact .inr (Gauges.get?_values_foldl_note_congr _ _ (.inr hsame))

/-- **A futile tick leaves no trace in later decisions.** Take it out of a run in which everything
else is met as before. Then its report is missing from the reports of the run, and that is all: the
ticks after it see, decide, command and achieve the same. The same scale-ups are remembered in the
end, and the same replicas are there; as this holds whatever comes later, it holds at all times.
The last report is the same if the futile tick died, and else as soon as another tick has returned
one. A gauge is the same if the futile tick did not sample its queue or a later tick did. -/
theorem reports_eraseIdx (h : a.Futile (a.play start before) t) :
    a.reports start (before ++ later) =
        (a.reports start (before ++ t :: later)).eraseIdx before.length ∧
      (a.play start (before ++ later)).memory.history =
        (a.play start (before ++ t :: later)).memory.history ∧
      (a.play start (before ++ later)).replicas =
        (a.play start (before ++ t :: later)).replicas ∧
      (t.encounter.dies a.strategy.scalingEnabled = true ∨
          (∃ u ∈ later, u.encounter.dies a.strategy.scalingEnabled = false) →
        (a.play start (before ++ later)).memory.lastReport =
          (a.play start (before ++ t :: later)).memory.lastReport) ∧
      (a.play start (before ++ later)).memory.gauges.application =
        (a.play start (before ++ t :: later)).memory.gauges.application ∧
      ∀ q, (¬ t.Samples q ∨ ∃ u ∈ later, u.Samples q) →
        (a.play start (before ++ later)).memory.gauges.values.get? q =
          (a.play start (before ++ t :: later)).memory.gauges.values.get? q := by
  have hnext := h.agrees
  have hend := hnext.play a later
  have hreports : a.reports (a.play start before) later =
      a.reports (a.turn (a.play start before) t) later := (hnext.reports a later).symm
  have hplay : a.play start (before ++ t :: later) =
      a.play (a.turn (a.play start before) t) later := a.play_append ..
  rw [hplay, a.play_append]
  refine ⟨?_, hend.history.symm, hend.replicas.symm,
    fun hlast ↦ (hnext.lastReport a (hlast.imp_left lastReport_turn_of_dies)).symm,
    hend.application.symm,
    fun q hq ↦ get?_gauges_play_congr ?_⟩
  · rw [reports_append, reports_append, ← a.length_reports start before,
      List.eraseIdx_append_of_length_le (Nat.le_refl _), Nat.sub_self, reports, hreports]
    rfl
  · rcases hq with hfailed | hsampled
    · exact .inr (get?_gauges_turn_of_not_samples hfailed).symm
    · exact .inl hsampled

/-- What a relay finds at first: one replica of each service, and nothing to remember. -/
def relayStart : Situation ℚ := ⟨.relay ∅, .ofList [("reader", 1), ("writer", 1)]⟩

/-- What a relay meets when it samples its input but cannot list the replicas. -/
def unlisted : Turn :=
  ⟨{ Encounter.relay (.ok 600) (.ok 0) 1 0 [] with listing := .error .timedOut }, []⟩

/-- A tick of a relay without a listing is futile, and the tick after it scales the reader up as if
it were the first one. -/
theorem relay_reports_without_unlisted :
    relay.Futile (relay.play relayStart []) unlisted ∧
      relay.reports relayStart [⟨lostWriter, ["reader"]⟩] =
        (relay.reports relayStart [unlisted, ⟨lostWriter, ["reader"]⟩]).eraseIdx 0 ∧
      (relay.play relayStart [unlisted, ⟨lostWriter, ["reader"]⟩]).replicas.get? "reader" =
        some 8 := by
  have hfutile : relay.Futile (relay.play relayStart []) unlisted := .inl ⟨_, rfl⟩
  obtain ⟨hreports, -, hreplicas, -⟩ :=
    @reports_eraseIdx ℚ _ relay relayStart [] [⟨lostWriter, ["reader"]⟩] unlisted hfutile
  refine ⟨hfutile, hreports, (congrArg (Table.get? · "reader") hreplicas).symm.trans ?_⟩
  cbv

/-- A gauge set by a futile tick outlasts the next tick if the query of that tick fails: the gauges
of the runs with and without the futile tick do not only differ until the next one. -/
theorem gauges_outlast_next_tick :
    ¬ ∀ (start : Situation ℚ) (before later : List Turn) (t : Turn),
      relay.Futile (relay.play start before) t → later ≠ [] →
      (relay.play start (before ++ later)).memory.gauges =
        (relay.play start (before ++ t :: later)).memory.gauges := by
  intro h
  have hgauges := h relayStart []
    [⟨.relay (.error .timedOut) (.error .timedOut) 1 60000000000 [], []⟩] unlisted
    (.inl ⟨_, rfl⟩) (List.cons_ne_nil _ _)
  have hvalue := congrArg (Gauges.value? · "in") hgauges
  revert hvalue
  decide

end Autoscaler

end QueueScaler
