import QueueScaler.Rate
import QueueScaler.Table
import QueueScaler.Text.Blank
/-!
# Queues, their consumers and their production edges

A wiring says of each managed queue which service drains it, how fast one replica does so, and what
it emits downstream. The targets of production edges need not be managed themselves: an unmanaged
queue has no edges.

## Main definitions

* `Binding`: the consumer side of a queue.
* `Wiring`: the bindings of the managed queues.
* `Wiring.edges`, `Wiring.targets`: the production edges out of a queue.
* `Wiring.services`: the services that consume a queue.
* `Wiring.unseen`: how many managed queues a search has not met yet, which bounds every search.

## Main results

* `Wiring.unseen_le`, `Wiring.unseen_lt`: a search that meets a new managed queue comes closer to
  its end.
-/

namespace QueueScaler

variable {R : Type} {α β : Type}

/-- The consumer side of a queue. -/
structure Binding (R : Type) where
  /-- The service that drains the queue; blank if there is none. -/
  service : String
  /-- The messages per minute that one replica consumes. -/
  consumptionRate : R
  /-- For each downstream queue, the messages emitted per consumed message. -/
  produces : Table R

/-- Bindings are compared member by member, rates as the arithmetic compares them. -/
instance [BEq R] : BEq (Binding R) :=
  ⟨fun a b ↦ a.service == b.service && a.consumptionRate == b.consumptionRate &&
    a.produces == b.produces⟩

/-- Whether a service is there to consume the queue. -/
def Binding.hasConsumer (b : Binding R) : Bool := !Text.isAllBlank b.service

/-- The binding of a queue that nobody is scaled for; it may still forward messages. -/
def Binding.terminal [Rate R] : Binding R := ⟨"", 0, ∅⟩

/-- The bindings of the managed queues. -/
abbrev Wiring (R : Type) := Table (Binding R)

namespace Wiring

/-- The production edges out of a queue. -/
def edges (w : Wiring R) (queue : String) : Table R :=
  ((w.get? queue).map Binding.produces).getD ∅

/-- The queues that a queue produces to, in name order. -/
def targets (w : Wiring R) (queue : String) : List String := (w.edges queue).keys

/-- The queues with a consumer. -/
def consumed (w : Wiring R) : Wiring R := w.filter fun _ b ↦ b.hasConsumer

/-- The services that consume some queue. -/
def services (w : Wiring R) : NameSet := .ofNames (w.consumed.values.map Binding.service)

/-- How many managed queues have no entry in `seen`. -/
def unseen (w : Wiring R) (seen : Table α) : Nat :=
  (w.keys.filter fun q ↦ !seen.contains q).length

private theorem length_filter_le {p q : String → Bool} {l : List String}
    (h : ∀ x, p x = true → q x = true) : (l.filter p).length ≤ (l.filter q).length := by
  induction l with
  | nil => exact Nat.le_refl _
  | cons a l ih =>
    by_cases hp : p a = true
    · simpa [hp, h a hp] using ih
    · by_cases hq : q a = true
      · simpa [hp, hq] using Nat.le_succ_of_le ih
      · simpa [hp, hq] using ih

private theorem length_filter_lt {p q : String → Bool} {l : List String} {a : String}
    (h : ∀ x, p x = true → q x = true) (ha : a ∈ l) (hp : p a = false) (hq : q a = true) :
    (l.filter p).length < (l.filter q).length := by
  induction l with
  | nil => exact absurd ha (by simp)
  | cons b l ih =>
    rcases List.mem_cons.mp ha with hab | hal
    · subst hab
      simpa [hp, hq] using Nat.lt_succ_of_le (length_filter_le h)
    · have := ih hal
      by_cases hb : p b = true
      · simpa [hb, h b hb] using this
      · by_cases hb' : q b = true
        · simpa [hb, hb'] using Nat.lt_succ_of_lt this
        · simpa [hb, hb'] using this

theorem unseen_le (w : Wiring R) {seen : Table α} {seen' : Table β}
    (h : ∀ q, q ∈ seen → q ∈ seen') : w.unseen seen' ≤ w.unseen seen := by
  refine length_filter_le fun q hq ↦ ?_
  have : ¬ q ∈ seen := fun hs ↦ by
    have hs : seen'.contains q = true := h q hs
    simp [hs] at hq
  have : ¬ seen.contains q = true := this
  simpa using this

theorem unseen_lt (w : Wiring R) {seen : Table α} {seen' : Table β} {q : String}
    (h : ∀ q, q ∈ seen → q ∈ seen') (hw : q ∈ w) (hs : q ∉ seen) (hs' : q ∈ seen') :
    w.unseen seen' < w.unseen seen := by
  refine length_filter_lt (a := q) (fun x hx ↦ ?_) (Table.mem_keys_iff.mpr hw) ?_ ?_
  · have : ¬ x ∈ seen := fun hs ↦ by
      have hs : seen'.contains x = true := h x hs
      simp [hs] at hx
    have : ¬ seen.contains x = true := this
    simpa using this
  · have hs' : seen'.contains q = true := hs'
    simp [hs']
  · have hs : ¬ seen.contains q = true := hs
    simpa using hs

end Wiring

end QueueScaler
