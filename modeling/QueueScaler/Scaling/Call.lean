import QueueScaler.Instant
/-!
# Calls to the outside

Depth queries, replica listings and scale commands are calls that may fail, take too long, or die
without an answer.

## Main definitions

* `CallFailure`: how a call may fail, with its text.
* `Answer`, `Answer.failure?`: the outcome of a call, and how it failed.
* `Arrival`: the outcome of one of several calls made together, at the moment when it came in.
* `Answer.within`: an answer that comes too late is none.

## Main results

* `Answer.of_within`: what is heard in time is what was answered.
* `Arrival.view_foldl`: what arrivals do to one part of a state that only one name touches.
-/

namespace QueueScaler

/-- How a call may fail. -/
inductive CallFailure where
  /-- The other side reports a reason. -/
  | reported (reason : String)
  /-- No answer came in time. -/
  | timedOut
  /-- The call died without an answer. -/
  | aborted
  deriving DecidableEq, Repr

/-- The text of a failed depth query or scale command. -/
def CallFailure.message : CallFailure → String
  | .reported reason => reason
  | .timedOut => "timed out"
  | .aborted => "query task aborted"

/-- The outcome of a call. -/
abbrev Answer (α : Type) := Except CallFailure α

/-- How a call failed, if it did. -/
def Answer.failure? {α : Type} : Answer α → Option CallFailure
  | .ok _ => none
  | .error failure => some failure

theorem Answer.failure?_eq_some_iff {α : Type} {answer : Answer α} {failure : CallFailure} :
    answer.failure? = some failure ↔ answer = .error failure := by
  cases answer <;> simp [failure?]

/-- The outcome of a call that takes some time, under a limit. -/
def Answer.within {α : Type} (limit time : Span) (answer : Answer α) : Answer α :=
  if time ≤ limit then answer else .error .timedOut

theorem Answer.of_within {α : Type} {limit time : Span} {answer : Answer α} {x : α}
    (h : answer.within limit time = .ok x) : answer = .ok x := by
  rw [Answer.within] at h
  split at h
  · exact h
  · cases h

/-- The outcome of one of several calls made together. -/
structure Arrival (α : Type) where
  /-- The queue or service that the call is about. -/
  name : String
  /-- The outcome. -/
  answer : Answer α
  /-- The moment when it came in. -/
  moment : Instant

/-- What arrivals do to one part of a state, when only those of one name touch that part. -/
theorem Arrival.view_foldl {α σ γ : Type} (view : σ → γ) {f : σ → Arrival α → σ}
    {g : γ → Arrival α → γ} {name : String}
    (hother : ∀ s a, a.name ≠ name → view (f s a) = view s)
    (hself : ∀ s a, a.name = name → view (f s a) = g (view s) a) (arrivals : List (Arrival α))
    (s : σ) :
    view (arrivals.foldl f s) = (arrivals.filter (·.name = name)).foldl g (view s) := by
  induction arrivals generalizing s with
  | nil => rfl
  | cons a arrivals ih =>
    rw [List.foldl_cons, ih, List.filter_cons]
    by_cases ha : a.name = name
    · rw [if_pos (decide_eq_true ha), List.foldl_cons, hself s a ha]
    · rw [if_neg (by simpa using ha), hother s a ha]

end QueueScaler
