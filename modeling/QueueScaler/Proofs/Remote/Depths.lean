import QueueScaler.Proofs.Scaling.Isolation
import QueueScaler.Proofs.Text.Digits
import QueueScaler.Remote.Queues
/-!
# Depths are never invented

The depth of a queue is the number in the broker's response, or the query fails. A response that
reports no success, that is no list of attributes, that lacks the attribute, or that has anything
but a number of 64 bits there says nothing about the depth. A tick holds such a queue for failed. It
has no depth then, not even zero, and keeps its gauge.

## Main definitions

* `Http.Response.Reports`: a response reports a depth.
* `QueueAccess.ask`, `QueueAccess.judge`: the two halves of a query, up to the response and from
  there on.
* `QueueAccess.answer`: what a tick gets to see of a query.

## Main results

* `QueueAccess.depth_eq_ok_iff`: a query gives the depth that the response reports.
* `QueueAccess.depth_of_response`: what comes of any response.
-/

namespace QueueScaler

variable {queue : String} {n : ℕ}

/-! ### Responses -/

/-- A response reports a depth: with success, and with a number of 64 bits among the attributes. -/
structure Http.Response.Reports (r : Http.Response) (n : ℕ) : Prop where
  /-- The status is one of success. -/
  success : 200 ≤ r.status ∧ r.status < 300
  /-- The attribute is there, and writes the number. -/
  written : ∃ attributes text, DepthReply.attributes? r.body = some attributes ∧
    attributes.get? "ApproximateNumberOfMessages" = some text ∧ Digits.Writes text.toList n
  /-- The number is one of 64 bits. -/
  lt : n < 2 ^ 64

theorem Http.StatusCode.isSuccess_iff {code : ℕ} :
    isSuccess code = true ↔ 200 ≤ code ∧ code < 300 := by
  rw [isSuccess, Bool.and_eq_true, decide_eq_true_eq, decide_eq_true_eq]

/-- **The number of messages in the content of a response** is the one that the attribute writes. -/
theorem DepthReply.read_eq_ok_iff {body : List UInt8} : read body = .ok n ↔
    (∃ attributes text, attributes? body = some attributes ∧
      attributes.get? "ApproximateNumberOfMessages" = some text ∧
        Digits.Writes text.toList n) ∧ n < 2 ^ 64 := by
  have hattribute : depthAttribute = "ApproximateNumberOfMessages" := rfl
  unfold read
  rcases hattributes : attributes? body with _ | attributes
  · simp
  · simp only [Option.some.injEq, exists_and_left, exists_eq_left', hattribute]
    rcases htext : attributes.get? "ApproximateNumberOfMessages" with _ | text
    · simp
    · have hcount : count? text = some n ↔ Digits.Writes text.toList n ∧ n < 2 ^ 64 :=
        Digits.count?_eq_some_iff
      simp only [Option.some.injEq, exists_eq_left', ← hcount]
      rcases count? text with _ | m
      · exact iff_of_false (fun h ↦ by cases h) fun h ↦ by cases h
      · exact ⟨fun h ↦ congrArg some (Except.ok.inj h), fun h ↦ congrArg _ (Option.some.inj h)⟩

theorem mapError_eq_ok_iff {α ε ε' : Type} {outcome : Except ε α} {f : ε → ε'} {x : α} :
    outcome.mapError f = .ok x ↔ outcome = .ok x := by
  cases outcome <;> simp [Except.mapError]

/-! ### Queries -/

namespace QueueAccess

/-- The first half of a query: the response to the question for the depth. -/
def ask (a : QueueAccess) (network : Http.Network) (limit : ℕ) (queue : String) :
    Except DepthFault Http.Response := do
  let endpoint ← endpoint (a.queueUrl queue)
  (Http.send network limit "POST" endpoint
    [("content-type", "application/x-amz-json-1.0"),
      ("x-amz-target", "AmazonSQS.GetQueueAttributes")]
    ((question (a.queueUrl queue)).render toString).toUTF8.toList).mapError .exchange

/-- The second half of a query: the depth that a response gives. -/
def judge (queue : String) (response : Http.Response) : Except DepthFault ℕ := do
  let response ← (response.expectSuccess s!"GetQueueAttributes for {queue}").mapError .exchange
  (DepthReply.read response.body).mapError (.reply queue)

variable {a : QueueAccess} {network : Http.Network} {limit : ℕ} {response : Http.Response}

theorem depth_eq_bind :
    a.depth network limit queue = (a.ask network limit queue).bind (judge queue) := by
  rw [depth, ask]
  rcases endpoint (a.queueUrl queue) with fault | endpoint
  · rfl
  · rfl

/-- A response gives the depth that it reports. -/
theorem judge_eq_ok_iff : judge queue response = .ok n ↔ response.Reports n := by
  have hjudge : judge queue response = .ok n ↔
      (200 ≤ response.status ∧ response.status < 300) ∧ DepthReply.read response.body = .ok n := by
    rw [judge, Http.Response.expectSuccess, ← Http.StatusCode.isSuccess_iff]
    split_ifs with hsuccess
    · exact mapError_eq_ok_iff.trans (and_iff_right hsuccess).symm
    · exact iff_of_false (fun h ↦ by cases h) fun h ↦ hsuccess h.1
  rw [hjudge, DepthReply.read_eq_ok_iff]
  exact ⟨fun ⟨hsuccess, hwritten, hlt⟩ ↦ ⟨hsuccess, hwritten, hlt⟩,
    fun ⟨hsuccess, hwritten, hlt⟩ ↦ ⟨hsuccess, hwritten, hlt⟩⟩

/-- **A query gives the depth that the response reports,** and none without a response. -/
theorem depth_eq_ok_iff : a.depth network limit queue = .ok n ↔
    ∃ response, a.ask network limit queue = .ok response ∧ response.Reports n := by
  rw [depth_eq_bind]
  rcases a.ask network limit queue with fault | response
  · exact iff_of_false (fun h ↦ by cases h) fun ⟨_, h, _⟩ ↦ by cases h
  · refine judge_eq_ok_iff.trans ⟨fun h ↦ ⟨response, rfl, h⟩, fun ⟨response', h, hreports⟩ ↦ ?_⟩
    exact Except.ok.inj h ▸ hreports

/-- An outcome that a tick gets to see is that of a query: the depth, or some text about the fault,
or that it came too late. -/
def Heard (a : QueueAccess) (network : Http.Network) (limit : ℕ) (c : Arrival ℕ) : Prop :=
  ∃ (reason : DepthFault → String) (patience time : Span), c.answer =
    .within patience time ((a.depth network limit c.name).mapError fun f ↦ .reported (reason f))

/-- **What comes of any response to a query.** The query gives a depth exactly if the response
reports it: the status is one of success, the content is a list of attributes, and the attribute is
one or more digits, perhaps after a plus sign, that denote the depth, which fits into 64 bits. For
any other response the query fails. A tick that hears of it counts the queue among the failed ones,
holds no depth of it, and leaves its gauge as it was. -/
theorem depth_of_response (hask : a.ask network limit queue = .ok response) :
    (∀ n, a.depth network limit queue = .ok n ↔ response.Reports n) ∧
      ((∀ n, ¬ response.Reports n) →
        (∃ fault, a.depth network limit queue = .error fault) ∧
          ∀ (R : Type) [Rate R] (scaler : Autoscaler R) (m : Memory R) (e : Encounter),
            scaler.Complete m e → ∀ c ∈ e.samples, c.name = queue → a.Heard network limit c →
              ∃ failure, scaler.queueEntry m e queue =
                ⟨none, some failure, m.gauges.values.get? queue⟩) := by
  have hdepth (n : ℕ) : a.depth network limit queue = .ok n ↔ response.Reports n := by
    simp only [depth_eq_ok_iff, hask, Except.ok.injEq, exists_eq_left']
  refine ⟨hdepth, fun hnone ↦ ⟨?_, ?_⟩⟩
  · rcases hquery : a.depth network limit queue with fault | n
    · exact ⟨fault, rfl⟩
    · exact absurd ((hdepth n).mp hquery) (hnone n)
  · rintro R _ scaler m e hcomplete c hc rfl ⟨reason, patience, time, hanswer⟩
    rw [Autoscaler.queueEntry_eq hcomplete hc, QueueEntry.after]
    rcases hheard : c.answer with failure | n
    · exact ⟨failure, rfl⟩
    · have hquery := mapError_eq_ok_iff.mp (Answer.of_within (hanswer.symm.trans hheard))
      exact absurd ((hdepth n).mp hquery) (hnone n)

/-- The content of a response that writes a depth. -/
def content (depth : String) : List UInt8 :=
  ((Json.object [("Attributes", .object [(depthAttribute, .text depth)])] : Json ℕ String).render
    toString).toUTF8.toList

/-- A broker that gives the same response to every question. -/
def broker (status : ℕ) (depth : String) : Http.Network :=
  fun _ ↦ some fun _ ↦ .answered ⟨status, content depth⟩

/-- Queues at a local broker. -/
def localQueues : QueueAccess := ⟨"http://127.0.0.1:4566/queues/"⟩

/-- A relay whose reader's queue cannot be queried. -/
def unheard : Encounter := .relay (.error (.reported "no depth")) (.ok 0) 1 5 []

open Autoscaler in
/-- A depth with a plus sign is read. The same depth in a response that reports no success is not
taken for any depth, nor for an empty queue. -/
theorem broker_depths :
    localQueues.ask (broker 200 "+7") 1000 "in" = .ok ⟨200, content "+7"⟩ ∧
      localQueues.depth (broker 200 "+7") 1000 "in" = .ok 7 ∧
      localQueues.ask (broker 503 "+7") 1000 "in" = .ok ⟨503, content "+7"⟩ ∧
      (∀ n, localQueues.depth (broker 503 "+7") 1000 "in" ≠ .ok n) ∧
      ∃ failure, relay.queueEntry (.relay ∅) unheard "in" = ⟨none, some failure, none⟩ := by
  have hask : localQueues.ask (broker 200 "+7") 1000 "in" = .ok ⟨200, content "+7"⟩ := by rfl
  have hattributes : DepthReply.attributes? (content "+7") =
      some (.singleton "ApproximateNumberOfMessages" "+7") := by cbv
  have hwrites : Digits.Writes "+7".toList 7 ∧ 7 < 2 ^ 64 :=
    Digits.count?_eq_some_iff.mp (by decide)
  have hreports : Http.Response.Reports ⟨200, content "+7"⟩ 7 :=
    ⟨by decide, ⟨_, "+7", hattributes, by decide, hwrites.1⟩, hwrites.2⟩
  have hask' : localQueues.ask (broker 503 "+7") 1000 "in" = .ok ⟨503, content "+7"⟩ := by rfl
  have hsilent (n : ℕ) : ¬ Http.Response.Reports ⟨503, content "+7"⟩ n :=
    fun h ↦ absurd h.success.2 (by decide)
  obtain ⟨hdepth, hfailure⟩ := depth_of_response hask'
  obtain ⟨⟨fault, hfault⟩, htick⟩ := hfailure hsilent
  have hcommands : (relay.tick (.relay ∅) unheard).1.commands.map Prod.fst = [] := by cbv
  have hcomplete : relay.Complete (.relay ∅) unheard :=
    ⟨by decide, by rw [hcommands]; decide⟩
  have hheard : localQueues.Heard (broker 503 "+7") 1000 ⟨"in", .error (.reported "no depth"), 5⟩ :=
    ⟨fun _ ↦ "no depth", 1000, 5, by rw [hfault]; rfl⟩
  refine ⟨hask, ((depth_of_response hask).1 7).mpr hreports, hask', fun n hn ↦ ?_, ?_⟩
  · exact hsilent n ((hdepth n).mp hn)
  · exact htick ℚ relay (.relay ∅) unheard hcomplete _ (List.mem_cons_of_mem _ List.mem_cons_self)
      rfl hheard

end QueueAccess

end QueueScaler
