/-!
# Loops, round by round

A loop repeats a round on its state until a round finds nothing left to do, or fails. It need not
end; that it does, and how, is a statement about it. The rounds decide alone how it ends.

## Main definitions

* `Ends`: a loop ends, with a state or with a failure.

## Main results

* `Ends.unique`: a loop ends in one way only.
-/

namespace QueueScaler

variable {σ ε : Type}

/-- A loop that repeats a round ends from some state with some outcome. A round stops the loop,
fails, or leaves the state that the next round starts from. -/
inductive Ends (round : σ → Except ε (Option σ)) : σ → Except ε σ → Prop
  /-- Nothing is left to do. -/
  | stop {s : σ} (h : round s = .ok none) : Ends round s (.ok s)
  /-- The round fails, and the loop with it. -/
  | fail {s : σ} {failure : ε} (h : round s = .error failure) : Ends round s (.error failure)
  /-- The loop goes on. -/
  | next {s t : σ} {outcome : Except ε σ} (h : round s = .ok (some t))
    (rest : Ends round t outcome) : Ends round s outcome

/-- A loop ends in one way only. -/
theorem Ends.unique {round : σ → Except ε (Option σ)} {s : σ} {outcome outcome' : Except ε σ}
    (h : Ends round s outcome) (h' : Ends round s outcome') : outcome = outcome' := by
  induction h with
  | stop h =>
    cases h' with
    | stop _ => rfl
    | fail h' => cases h.symm.trans h'
    | next h' _ => cases h.symm.trans h'
  | fail h =>
    cases h' with
    | stop h' => cases h.symm.trans h'
    | fail h' => cases h.symm.trans h'; rfl
    | next h' _ => cases h.symm.trans h'
  | next h _ ih =>
    cases h' with
    | stop h' => cases h.symm.trans h'
    | fail h' => cases h.symm.trans h'
    | next h' rest =>
      obtain rfl := Option.some.inj (Except.ok.inj (h.symm.trans h'))
      exact ih rest

end QueueScaler
