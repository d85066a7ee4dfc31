import QueueScaler.Proofs.Pipeline.Inflows
/-!
# The walk in topological order

A queue is expanded once all its producers in the part touched have been expanded, so what it has
received by then is its whole inflow. Nothing is assumed of the arithmetic: the rate of a queue is
the sum of its shares in the very order in which they are delivered.

## Main definitions

* `Wiring.received`, `Wiring.gathered`: what one expansion adds to a queue, and what several do.
* `Wiring.Walking`: the invariant of the walk.
* `Wiring.Walked`: the outcome of a walk that has expanded everything.

## Main results

* `Wiring.Flow.of_expand?`: what one expansion does.
* `Wiring.Walking.expand`, `Wiring.Walking.run`: every expansion keeps the invariant.
* `Wiring.AcyclicFrom.exists_walked`: where no cycle can be reached, the walk expands everything the
  origin touches.
* `Wiring.mem_propagate`: the queues with a follow-up rate are those the origin reaches.
-/

namespace QueueScaler.Wiring

variable {R : Type}

/-! ### Settling one edge -/

namespace Flow

@[simp] theorem rates_settle (f : Flow R) (t : String) : (f.settle t).rates = f.rates := by
  unfold settle
  split <;> rfl

@[simp] theorem inflow_settle (f : Flow R) (t : String) : (f.settle t).inflow = f.inflow := by
  unfold settle
  split <;> rfl

@[simp] theorem expanded_settle (f : Flow R) (t : String) :
    (f.settle t).expanded = f.expanded := by
  unfold settle
  split <;> rfl

theorem get?_waiting_settle (f : Flow R) (t q : String) :
    (f.settle t).waiting.get? q =
      if q = t then (f.waiting.get? q).map Nat.pred else f.waiting.get? q := by
  unfold settle
  split
  · rename_i n hn
    rw [Table.get?_insert]
    by_cases hq : q = t
    · subst hq
      simp [hn]
    · simp [hq]
  · rename_i hn
    by_cases hq : q = t
    · subst hq
      rcases h : f.waiting.get? q with _ | n
      · simp
      · cases n with
        | zero => simp
        | succ n => exact absurd h (hn n)
    · simp [hq]

theorem ready_settle (f : Flow R) (t : String) :
    (f.settle t).ready = if f.waiting.get? t = some 1 then f.ready ++ [t] else f.ready := by
  unfold settle
  split
  · rename_i n hn
    simp [hn]
  · rename_i hn
    rw [if_neg fun h ↦ hn 0 h]

end Flow

variable [Zero R] [Add R] [Mul R] {w : Wiring R} {origin p q : String} {x : R}

/-! ### Received rates -/

/-- What a queue has received after a queue has been expanded at some rate. -/
def received (w : Wiring R) (rate : R) (p q : String) (old : Option R) : Option R :=
  match (w.edges p).get? q with
  | none => old
  | some relative => some (old.getD 0 + relative * rate)

/-- What a queue has received after several expansions, the latest first, if the inflow of each
expanded queue is given. -/
def gathered (w : Wiring R) (inflow : String → R) (q : String) : List String → Option R
  | [] => none
  | p :: earlier => w.received (inflow p) p q (gathered w inflow q earlier)

theorem received_of_not_produces {rate : R} {old : Option R} (h : ¬ w.Produces p q) :
    w.received rate p q old = old := by
  rw [received, not_produces_iff_get?.mp h]

theorem received_eq_none_iff {rate : R} {old : Option R} :
    w.received rate p q old = none ↔ ¬ w.Produces p q ∧ old = none := by
  rw [received, not_produces_iff_get?]
  cases (w.edges p).get? q <;> simp

theorem gathered_eq_none_iff {inflow : String → R} {order : List String} :
    w.gathered inflow q order = none ↔ ∀ p ∈ order, ¬ w.Produces p q := by
  induction order with
  | nil => simp [gathered]
  | cons p order ih => rw [gathered, received_eq_none_iff, ih, List.forall_mem_cons]

theorem gathered_congr {f g : String → R} {order : List String} (h : ∀ p ∈ order, f p = g p) :
    w.gathered f q order = w.gathered g q order := by
  induction order with
  | nil => rfl
  | cons p order ih =>
    rw [gathered, gathered, h p List.mem_cons_self,
      ih fun r hr ↦ h r (List.mem_cons_of_mem _ hr)]

/-! ### One expansion -/

namespace Flow

variable {rate : R} {f g : Flow R}

theorem expanded_foldl_deliver (edges : List (String × R)) (f : Flow R) :
    (edges.foldl (deliver rate) f).expanded = f.expanded := by
  induction edges generalizing f with
  | nil => rfl
  | cons e edges ih => rw [List.foldl_cons, ih, deliver, expanded_settle]

theorem ready_foldl_deliver {edges : List (String × R)} (h : (edges.map Prod.fst).Nodup) :
    (edges.foldl (deliver rate) f).ready =
      f.ready ++ (edges.map Prod.fst).filter fun t ↦ f.waiting.get? t = some 1 := by
  induction edges generalizing f with
  | nil => simp
  | cons e edges ih =>
    have hedges := List.nodup_cons.mp h
    -- A delivery along one edge leaves the counts of the other targets alone.
    have hfilter : (edges.map Prod.fst).filter
          (fun t ↦ (f.deliver rate e).waiting.get? t = some 1) =
        (edges.map Prod.fst).filter fun t ↦ f.waiting.get? t = some 1 := by
      refine List.filter_congr fun t ht ↦ ?_
      have hne : t ≠ e.1 := fun he ↦ hedges.1 (he ▸ ht)
      rw [deliver, get?_waiting_settle, if_neg hne]
    rw [List.foldl_cons, ih hedges.2, hfilter, deliver, ready_settle, List.map_cons,
      List.filter_cons]
    by_cases he : f.waiting.get? e.1 = some 1 <;> simp [he]

theorem get?_rates_fold_deliver (edges : Table R) (q : String) :
    (edges.entries.foldl (deliver rate) f).rates.get? q = match edges.get? q with
      | none => f.rates.get? q
      | some relative => some ((f.rates.get? q).getD 0 + relative * rate) := by
  refine Table.view_fold (fun f ↦ f.rates.get? q) (f := fun f t r ↦ deliver rate f (t, r))
    (g := fun r old ↦ some (old.getD 0 + r * rate)) (fun s t r ht ↦ ?_) (fun s r ↦ ?_) edges f
  · rw [deliver, rates_settle, Table.get?_alter, if_neg (Ne.symm ht)]
  · rw [deliver, rates_settle, Table.get?_alter_self]

theorem get?_inflow_fold_deliver (edges : Table R) (q : String) :
    (edges.entries.foldl (deliver rate) f).inflow.get? q = match edges.get? q with
      | none => f.inflow.get? q
      | some relative => some ((f.inflow.get? q).getD 0 + relative * rate) := by
  refine Table.view_fold (fun f ↦ f.inflow.get? q) (f := fun f t r ↦ deliver rate f (t, r))
    (g := fun r old ↦ some (old.getD 0 + r * rate)) (fun s t r ht ↦ ?_) (fun s r ↦ ?_) edges f
  · rw [deliver, inflow_settle, Table.get?_alter, if_neg (Ne.symm ht)]
  · rw [deliver, inflow_settle, Table.get?_alter_self]

theorem get?_waiting_fold_deliver (edges : Table R) (q : String) :
    (edges.entries.foldl (deliver rate) f).waiting.get? q = match edges.get? q with
      | none => f.waiting.get? q
      | some _ => (f.waiting.get? q).map Nat.pred := by
  refine Table.view_fold (fun f ↦ f.waiting.get? q) (f := fun f t r ↦ deliver rate f (t, r))
    (g := fun _ old ↦ old.map Nat.pred) (fun s t r ht ↦ ?_) (fun s r ↦ ?_) edges f
  · rw [deliver, get?_waiting_settle, if_neg (Ne.symm ht)]
  · rw [deliver, get?_waiting_settle, if_pos rfl]

/-- **One expansion.** The next ready queue is expanded at its inflow: each of its targets receives
its share and waits for one edge less, and those that waited for one edge only become ready. -/
theorem of_expand? (h : f.expand? w = some g) :
    ∃ queue ready, f.ready = queue :: ready ∧ g.expanded = queue :: f.expanded ∧
      g.ready = ready ++ (w.targets queue).filter (fun t ↦ f.waiting.get? t = some 1) ∧
      (∀ q, g.rates.get? q = w.received (f.inflow.getD queue 0) queue q (f.rates.get? q)) ∧
      (∀ q, g.inflow.get? q = w.received (f.inflow.getD queue 0) queue q (f.inflow.get? q)) ∧
      ∀ q, g.waiting.get? q =
        if w.Produces queue q then (f.waiting.get? q).map Nat.pred else f.waiting.get? q := by
  unfold expand? at h
  split at h
  · exact absurd h (by simp)
  · rename_i queue ready hready
    obtain rfl := Option.some.inj h
    refine ⟨queue, ready, hready, expanded_foldl_deliver _ _,
      ready_foldl_deliver (w.nodup_targets queue), get?_rates_fold_deliver _,
      get?_inflow_fold_deliver _, fun q ↦ ?_⟩
    rw [get?_waiting_fold_deliver]
    split
    · rename_i hq
      rw [if_neg (not_produces_iff_get?.mpr hq)]
    · rename_i relative hq
      rw [if_pos (produces_iff_get?.mpr ⟨relative, hq⟩)]

end Flow

/-! ### The invariant of the walk -/

/-- The invariant of a walk from an origin that is drained at some rate. -/
structure Walking (w : Wiring R) (origin : String) (x : R) (f : Flow R) : Prop where
  /-- No queue gets ready or is expanded twice. -/
  nodup : (f.expanded ++ f.ready).Nodup
  /-- A queue is ready or expanded once all its feeders are expanded. -/
  mem_iff : ∀ q, q ∈ f.expanded ++ f.ready ↔
    w.Touches origin q ∧ ∀ p ∈ w.feeders origin q, p ∈ f.expanded
  /-- The edges still to deliver to a queue are those from feeders not yet expanded. -/
  waiting : ∀ q, f.waiting.getD q 0 = (w.feeders origin q \ f.expanded.toFinset).card
  /-- What a queue has received is its share of the inflow of the queues expanded. -/
  rates : ∀ q, f.rates.get? q = w.gathered (f.inflow.getD · 0) q f.expanded
  /-- The inflow of a queue is what it has received, and the rate of the origin its own. -/
  inflow : ∀ q, f.inflow.get? q = if q = origin then some x else f.rates.get? q

namespace Walking

variable {f g : Flow R}

/-- The walk may start if no edge leads back to the origin. -/
theorem start (ho : origin ∈ w) (hfree : w.feeders origin origin = ∅) (x : R) :
    w.Walking origin x (.start origin x (w.inDegrees origin)) where
  nodup := List.nodup_singleton origin
  mem_iff q := by
    rw [Flow.start, List.nil_append, List.mem_singleton]
    constructor
    · rintro rfl
      exact ⟨.refl q, fun p hp ↦ by simp [hfree] at hp⟩
    · rintro ⟨rfl | hq, hfed⟩
      · rfl
      · obtain ⟨p, htouch, hp⟩ := hq.exists_producer
        exact absurd (hfed p (mem_feeders.mpr ⟨htouch, hp⟩)) List.not_mem_nil
  waiting q := by
    simp only [Flow.start, List.toFinset_nil, Finset.sdiff_empty]
    exact getD_inDegrees ho
  rates q := rfl
  inflow q := by
    rw [Flow.start, Table.get?_singleton]
    rfl

/-- What the next expansion meets: a queue not yet expanded, none of whose targets is. -/
theorem next (h : w.Walking origin x f) {queue : String} {ready : List String}
    (hready : f.ready = queue :: ready) :
    queue ∉ f.expanded ∧ w.Touches origin queue ∧
      ∀ t, w.Produces queue t → t ∉ f.expanded ++ f.ready := by
  have hmem : queue ∈ f.expanded ++ f.ready :=
    List.mem_append_right _ (hready ▸ List.mem_cons_self)
  have htouch := ((h.mem_iff queue).mp hmem).1
  have hnew : queue ∉ f.expanded := fun he ↦
    (List.nodup_append.mp h.nodup).2.2 queue he queue (hready ▸ List.mem_cons_self) rfl
  refine ⟨hnew, htouch, fun t ht hmem ↦ hnew ?_⟩
  exact ((h.mem_iff t).mp hmem).2 queue (mem_feeders.mpr ⟨htouch, ht⟩)

/-- A target that waited for one edge only has no other feeder left to be expanded. -/
theorem feeders_subset_of_waiting (h : w.Walking origin x f) {queue : String}
    (hnew : queue ∉ f.expanded) (hfeed : queue ∈ w.feeders origin q) :
    f.waiting.get? q = some 1 ↔ ∀ p ∈ w.feeders origin q, p ∈ queue :: f.expanded := by
  have hleft : queue ∈ w.feeders origin q \ f.expanded.toFinset :=
    Finset.mem_sdiff.mpr ⟨hfeed, fun he ↦ hnew (List.mem_toFinset.mp he)⟩
  have hcard := h.waiting q
  constructor
  · intro hone p hp
    rw [Table.getD_eq, hone, Option.getD_some, eq_comm, Finset.card_eq_one] at hcard
    obtain ⟨a, ha⟩ := hcard
    by_cases he : p ∈ f.expanded
    · exact List.mem_cons_of_mem _ he
    · have hp : p ∈ w.feeders origin q \ f.expanded.toFinset :=
        Finset.mem_sdiff.mpr ⟨hp, fun h ↦ he (List.mem_toFinset.mp h)⟩
      rw [ha, Finset.mem_singleton] at hp hleft
      exact hp.trans hleft.symm ▸ List.mem_cons_self
  · intro hfed
    have hsingle : w.feeders origin q \ f.expanded.toFinset = {queue} := by
      refine Finset.eq_singleton_iff_unique_mem.mpr ⟨hleft, fun p hp ↦ ?_⟩
      obtain ⟨hp, hne⟩ := Finset.mem_sdiff.mp hp
      exact (List.mem_cons.mp (hfed p hp)).resolve_right fun he ↦ hne (List.mem_toFinset.mpr he)
    rw [hsingle, Finset.card_singleton, Table.getD_eq] at hcard
    rcases hw : f.waiting.get? q with _ | n
    · simp [hw] at hcard
    · simpa [hw] using hcard

/-- **A queue gets ready with its whole inflow:** an expansion adds nothing to what a queue that is
ready or expanded has received. -/
theorem get?_inflow_expand (h : w.Walking origin x f) (hg : f.expand? w = some g)
    (hp : p ∈ f.expanded ++ f.ready) : g.inflow.get? p = f.inflow.get? p := by
  obtain ⟨queue, ready, hready, -, -, -, hinflow, -⟩ := Flow.of_expand? hg
  obtain ⟨-, -, htargets⟩ := h.next hready
  rw [hinflow, received_of_not_produces fun ht ↦ htargets p ht hp]

/-- **Every expansion keeps the invariant.** -/
theorem expand (h : w.Walking origin x f) (hfree : w.feeders origin origin = ∅)
    (hg : f.expand? w = some g) : w.Walking origin x g := by
  obtain ⟨queue, ready, hready, hexp, hrdy, hrates, hinflow, hwaiting⟩ := Flow.of_expand? hg
  obtain ⟨hnew, htouch, htargets⟩ := h.next hready
  have hfeed {t : String} : queue ∈ w.feeders origin t ↔ w.Produces queue t := by
    rw [mem_feeders, and_iff_right htouch]
  have hfresh {t : String} : t ∈ (w.targets queue).filter (fun t ↦ f.waiting.get? t = some 1) ↔
      w.Produces queue t ∧ f.waiting.get? t = some 1 := by
    rw [List.mem_filter, decide_eq_true_eq]
    rfl
  have hperm : (queue :: f.expanded ++ ready).Perm (f.expanded ++ f.ready) := by
    rw [hready]
    exact List.perm_middle.symm
  -- The inflow of a queue that has been expanded is final.
  have hfinal : ∀ p ∈ queue :: f.expanded, g.inflow.getD p 0 = f.inflow.getD p 0 := by
    intro p hp
    rw [Table.getD_eq, Table.getD_eq, h.get?_inflow_expand hg]
    exact hperm.mem_iff.mp (List.mem_append_left _ hp)
  constructor
  · rw [hexp, hrdy, ← List.append_assoc]
    refine List.Nodup.append (hperm.nodup_iff.mpr h.nodup) ((w.nodup_targets queue).filter _) ?_
    exact fun t ht ht' ↦ htargets t (hfresh.mp ht').1 (hperm.mem_iff.mp ht)
  · intro q
    rw [hexp, hrdy, ← List.append_assoc, List.mem_append, hperm.mem_iff, h.mem_iff, hfresh]
    by_cases hq : w.Produces queue q
    · have hone := h.feeders_subset_of_waiting hnew (hfeed.mpr hq)
      have hold : ¬ ∀ p ∈ w.feeders origin q, p ∈ f.expanded := fun hall ↦
        hnew (hall queue (hfeed.mpr hq))
      rw [and_iff_right hq, hone]
      exact ⟨fun h' ↦ ⟨htouch.tail hq, h'.resolve_left fun h'' ↦ hold h''.2⟩, fun h' ↦ .inr h'.2⟩
    · have hsame : (∀ p ∈ w.feeders origin q, p ∈ queue :: f.expanded) ↔
          ∀ p ∈ w.feeders origin q, p ∈ f.expanded := by
        refine forall₂_congr fun p hp ↦ ?_
        rw [List.mem_cons, or_iff_right]
        rintro rfl
        exact hq (hfeed.mp hp)
      rw [hsame]
      tauto
  · intro q
    rw [hexp, List.toFinset_cons, Finset.sdiff_insert, Table.getD_eq, hwaiting]
    by_cases hq : w.Produces queue q
    · have hleft : queue ∈ w.feeders origin q \ f.expanded.toFinset :=
        Finset.mem_sdiff.mpr ⟨hfeed.mpr hq, fun he ↦ hnew (List.mem_toFinset.mp he)⟩
      rw [if_pos hq, Finset.card_erase_of_mem hleft, ← h.waiting, Table.getD_eq]
      cases f.waiting.get? q <;> rfl
    · rw [if_neg hq, Finset.erase_eq_of_notMem, ← h.waiting, Table.getD_eq]
      exact fun hm ↦ hq (hfeed.mp (Finset.mem_sdiff.mp hm).1)
  · intro q
    rw [hrates, h.rates, hexp, gathered, hfinal queue List.mem_cons_self]
    rw [gathered_congr fun p hp ↦ hfinal p (List.mem_cons_of_mem _ hp)]
  · intro q
    rw [hinflow, hrates, h.inflow]
    by_cases hq : q = origin
    · subst hq
      rw [if_pos rfl, if_pos rfl, received_of_not_produces]
      exact fun ht ↦ by simpa [hfree] using hfeed.mpr ht
    · rw [if_neg hq, if_neg hq]

/-- The walk keeps the invariant to its end, when no queue is ready. -/
theorem run (h : w.Walking origin x f) (hfree : w.feeders origin origin = ∅) :
    w.Walking origin x (f.run w) ∧ (f.run w).ready = [] := by
  fun_induction Flow.run w f with
  | case1 f hf =>
    refine ⟨h, ?_⟩
    unfold Flow.expand? at hf
    split at hf
    · assumption
    · exact absurd hf (by simp)
  | case2 f g hg ih => exact ih (h.expand hfree hg)

/-- Without a cycle to be reached, the walk ends when everything touched has been expanded. -/
theorem mem_expanded (h : w.Walking origin x f) (hw : w.AcyclicFrom origin)
    (hready : f.ready = []) : q ∈ f.expanded ↔ w.Touches origin q := by
  have hmem (q : String) := h.mem_iff q
  simp only [hready, List.append_nil] at hmem
  refine ⟨fun hq ↦ ((hmem q).mp hq).1, fun hq ↦ ?_⟩
  induction q using (wellFounded_produces_of hw).induction with
  | _ q ih =>
    refine (hmem q).mpr ⟨hq, fun p hp ↦ ?_⟩
    have hfeeds := mem_feeders.mp hp
    exact ih p hfeeds hfeeds.1

end Walking

/-! ### The outcome of the walk -/

/-- The outcome of a walk that has expanded everything: the order of the expansions, the latest
first, and the rates that they come to. -/
structure Walked (w : Wiring R) (origin : String) (x : R) (order : List String) (rates : Table R) :
    Prop where
  /-- No queue is expanded twice. -/
  nodup : order.Nodup
  /-- The queues expanded are those the origin touches. -/
  mem_iff : ∀ q, q ∈ order ↔ w.Touches origin q
  /-- The rate of a queue is the sum of its shares, in the order of the expansions. -/
  rates : ∀ q, rates.get? q =
    w.gathered (fun p ↦ if p = origin then x else rates.getD p 0) q order

/-- **Propagation succeeds where no cycle can be reached,** with everything the origin touches
expanded. -/
theorem AcyclicFrom.exists_walked (hw : w.AcyclicFrom origin) (ho : origin ∈ w) (x : R) :
    ∃ order rates, w.propagate origin x = .ok rates ∧ w.Walked origin x order rates := by
  have hfree : w.feeders origin origin = ∅ := hw.feeders_self
  obtain ⟨h, hready⟩ := (Walking.start ho hfree x).run hfree
  set final := (Flow.start origin x (w.inDegrees origin)).run w
  have hmem (q : String) : q ∈ final.expanded ↔ w.Touches origin q := h.mem_expanded hw hready
  have hnodup : final.expanded.Nodup := (List.nodup_append.mp h.nodup).1
  have hsize : final.expanded.length = (w.inDegrees origin).size := by
    rw [Table.size, ← List.length_map (f := Prod.fst)]
    refine ((List.perm_ext_iff_of_nodup hnodup (Table.nodup_keys _)).mpr fun q ↦ ?_).length_eq
    rw [hmem, Table.mem_keys_iff, mem_inDegrees ho]
  have hdegree : ¬ 0 < (w.inDegrees origin).getD origin 0 := by
    rw [getD_inDegrees ho, hfree, Finset.card_empty]
    exact Nat.lt_irrefl 0
  refine ⟨final.expanded, final.rates, ?_, hnodup, hmem, fun q ↦ ?_⟩
  · rw [propagate, if_neg (not_not.mpr ho), if_neg hdegree, if_neg hsize.not_lt]
  · rw [h.rates]
    refine gathered_congr fun p _ ↦ ?_
    rw [Table.getD_eq, h.inflow]
    by_cases hp : p = origin <;> simp [hp, Table.getD_eq]

theorem exists_walked (hw : w.Acyclic) (ho : origin ∈ w) (x : R) :
    ∃ order rates, w.propagate origin x = .ok rates ∧ w.Walked origin x order rates :=
  (hw.acyclicFrom origin).exists_walked ho x

/-- **The queues with a follow-up rate** are those the origin reaches. -/
theorem mem_propagate (hw : w.Acyclic) {rates : Table R} (h : w.propagate origin x = .ok rates) :
    q ∈ rates ↔ w.Reaches origin q := by
  by_cases ho : origin ∈ w
  · obtain ⟨order, rates', h', hwalk⟩ := exists_walked hw ho x
    obtain rfl := Except.ok.inj (h.symm.trans h')
    rw [← not_iff_not, Table.not_mem_iff_get?, hwalk.rates, gathered_eq_none_iff]
    constructor
    · rintro hnone hq
      obtain ⟨p, htouch, hp⟩ := hq.exists_producer
      exact hnone p ((hwalk.mem_iff p).mpr htouch) hp
    · exact fun hq p hp hprod ↦ hq (((hwalk.mem_iff p).mp hp).reaches hprod)
  · rw [propagate, if_pos ho] at h
    obtain rfl := Except.ok.inj h
    exact iff_of_false (Table.not_mem_empty q) fun hq ↦ ho hq.mem

/-- Propagation in an acyclic wiring succeeds from every queue. -/
theorem exists_propagate (hw : w.Acyclic) (origin : String) (x : R) :
    ∃ rates, w.propagate origin x = .ok rates := by
  by_cases ho : origin ∈ w
  · obtain ⟨order, rates, h, -⟩ := exists_walked hw ho x
    exact ⟨rates, h⟩
  · exact ⟨∅, by rw [propagate, if_pos ho]⟩

end QueueScaler.Wiring
