import Mathlib.Data.Finset.Card
import Mathlib.Logic.Relation
import Mathlib.Order.WellFounded
import QueueScaler.Pipeline.Downstream
/-!
# Which queues the messages of a queue can reach

Messages drained from a queue appear at the targets of its production edges, and from there at
theirs. A wiring is acyclic if none of them comes back to a queue it has passed. Since only managed
queues have edges and there are finitely many of them, the production edges of an acyclic wiring
can be followed neither forwards nor backwards forever.

## Main definitions

* `Wiring.Produces`, `Wiring.Reaches`: one production edge, and one or more of them.
* `Wiring.Acyclic`: no queue reaches itself.
* `Wiring.managed`: the managed queues, as a finite set.

## Main results

* `Wiring.wellFounded_produces_of`: induction against the production edges, among queues that no
  message comes back to.
* `Wiring.Acyclic.wellFounded_produces`, `Wiring.Acyclic.wellFounded_targets`: induction against
  and along the production edges.
* `Wiring.mem_downstream`: the breadth-first traversal finds exactly the queues reached.
-/

namespace QueueScaler.Wiring

variable {R : Type} {w : Wiring R} {p q t origin : String}

/-! ### Production edges -/

/-- A production edge leads from one queue to another. -/
def Produces (w : Wiring R) (p q : String) : Prop := q ∈ w.targets p

instance (w : Wiring R) (p q : String) : Decidable (w.Produces p q) :=
  inferInstanceAs (Decidable (q ∈ w.targets p))

/-- One or more production edges lead from one queue to another. -/
def Reaches (w : Wiring R) : String → String → Prop := Relation.TransGen w.Produces

/-- No message comes back to a queue it has passed. -/
def Acyclic (w : Wiring R) : Prop := ∀ q, ¬ w.Reaches q q

/-- The managed queues. -/
def managed (w : Wiring R) : Finset String := w.keys.toFinset

@[simp] theorem mem_managed : q ∈ w.managed ↔ q ∈ w := by
  rw [managed, List.mem_toFinset, Table.mem_keys_iff]

theorem nodup_targets (w : Wiring R) (p : String) : (w.targets p).Nodup := (w.edges p).nodup_keys

theorem produces_iff_mem : w.Produces p q ↔ q ∈ w.edges p := Table.mem_keys_iff

theorem produces_iff_get? : w.Produces p q ↔ ∃ rate, (w.edges p).get? q = some rate := by
  rw [produces_iff_mem, Table.mem_iff_get?]

theorem not_produces_iff_get? : ¬ w.Produces p q ↔ (w.edges p).get? q = none := by
  rw [produces_iff_mem, Table.not_mem_iff_get?]

theorem edges_of_not_mem (h : p ∉ w) : w.edges p = ∅ := by
  rw [edges, Table.not_mem_iff_get?.mp h, Option.map_none, Option.getD_none]

theorem targets_of_not_mem (h : p ∉ w) : w.targets p = [] := by
  rw [targets, edges_of_not_mem h]
  rfl

/-- Only a managed queue has production edges. -/
theorem Produces.mem (h : w.Produces p q) : p ∈ w := by
  by_contra hp
  rw [produces_iff_mem, edges_of_not_mem hp] at h
  exact Table.not_mem_empty q h

theorem Produces.reaches (h : w.Produces p q) : w.Reaches p q := Relation.TransGen.single h

theorem Reaches.trans (h : w.Reaches p q) (h' : w.Reaches q t) : w.Reaches p t :=
  Relation.TransGen.trans h h'

theorem Reaches.tail (h : w.Reaches p q) (h' : w.Produces q t) : w.Reaches p t :=
  Relation.TransGen.tail h h'

theorem Reaches.head (h : w.Produces p q) (h' : w.Reaches q t) : w.Reaches p t :=
  Relation.TransGen.head h h'

/-- Only a managed queue reaches another. -/
theorem Reaches.mem (h : w.Reaches p q) : p ∈ w := by
  induction h using Relation.TransGen.head_induction_on with
  | single h => exact h.mem
  | head h _ _ => exact h.mem

/-! ### Induction along the edges -/

open Classical in
/-- Where no queue of some kind reaches itself, the producers of that kind can be taken care of
before their targets. -/
theorem wellFounded_produces_of {kind : String → Prop} (h : ∀ p, kind p → ¬ w.Reaches p p) :
    WellFounded fun p q ↦ kind p ∧ w.Produces p q := by
  -- Fewer managed queues reach a producer than reach the queue: the producer itself is one less.
  refine Subrelation.wf (r := InvImage (· < ·) fun q ↦ (w.managed.filter (w.Reaches · q)).card)
    (fun {p q} hpq ↦ Finset.card_lt_card ?_) (InvImage.wf _ Nat.lt_wfRel.wf)
  refine (Finset.ssubset_iff_of_subset fun r hr ↦ ?_).mpr ⟨p, ?_, ?_⟩
  · obtain ⟨hr, hrp⟩ := Finset.mem_filter.mp hr
    exact Finset.mem_filter.mpr ⟨hr, hrp.tail hpq.2⟩
  · exact Finset.mem_filter.mpr ⟨mem_managed.mpr hpq.2.mem, hpq.2.reaches⟩
  · exact fun hp ↦ h p hpq.1 (Finset.mem_filter.mp hp).2

/-- In an acyclic wiring the producers of a queue can be taken care of before the queue. -/
theorem Acyclic.wellFounded_produces (hw : w.Acyclic) : WellFounded w.Produces := by
  have hall : WellFounded fun p q ↦ True ∧ w.Produces p q :=
    wellFounded_produces_of fun p _ ↦ hw p
  exact Subrelation.wf (fun h ↦ ⟨trivial, h⟩) hall

open Classical in
/-- In an acyclic wiring the targets of a queue can be taken care of before the queue. -/
theorem Acyclic.wellFounded_targets (hw : w.Acyclic) :
    WellFounded (fun t p ↦ w.Produces p t) := by
  refine Subrelation.wf
    (r := InvImage (· < ·) fun p ↦ (w.managed.filter fun r ↦ r = p ∨ w.Reaches p r).card)
    (fun {t p} h ↦ Finset.card_lt_card ?_) (InvImage.wf _ Nat.lt_wfRel.wf)
  refine (Finset.ssubset_iff_of_subset fun r hr ↦ ?_).mpr ⟨p, ?_, ?_⟩
  · obtain ⟨hmanaged, hrt | hrt⟩ := Finset.mem_filter.mp hr
    · exact Finset.mem_filter.mpr ⟨hmanaged, .inr (hrt ▸ h.reaches)⟩
    · exact Finset.mem_filter.mpr ⟨hmanaged, .inr (hrt.head h)⟩
  · exact Finset.mem_filter.mpr ⟨mem_managed.mpr h.mem, .inl rfl⟩
  · intro hp
    obtain ⟨-, hpt | hpt⟩ := Finset.mem_filter.mp hp
    · exact hw p (hpt ▸ h.reaches)
    · exact hw p (hpt.head h)

/-- A wiring whose edges cannot be followed forever is acyclic. -/
theorem acyclic_of_wellFounded_targets (h : WellFounded fun t p ↦ w.Produces p t) :
    w.Acyclic := by
  intro q hq
  exact h.transGen.irrefl.irrefl q (Relation.transGen_swap.mp hq)

/-! ### The breadth-first traversal -/

/-- The traversal meets no queue but those reached from the origin. -/
theorem spread_sound {met : NameSet} {pending : List String}
    (hmet : ∀ q ∈ met, q ≠ origin ∧ w.Reaches origin q)
    (hpending : ∀ q ∈ pending, q = origin ∨ w.Reaches origin q) :
    ∀ q ∈ w.spread origin met pending, q ≠ origin ∧ w.Reaches origin q := by
  fun_induction spread w origin met pending with
  | case1 met => exact hmet
  | case2 met queue pending fresh ih =>
    have hfresh : ∀ t ∈ fresh, t ≠ origin ∧ w.Reaches origin t := by
      intro t ht
      have ht := List.mem_filter.mp ht
      have hne : t ≠ origin ∧ t ∉ met := by simpa using ht.2
      refine ⟨hne.1, ?_⟩
      rcases hpending queue List.mem_cons_self with rfl | h
      · exact Produces.reaches ht.1
      · exact h.tail ht.1
    refine ih (fun q hq ↦ ?_) (fun q hq ↦ ?_)
    · rcases NameSet.mem_foldl_add.mp hq with hq | hq
      · exact hfresh q hq
      · exact hmet q hq
    · rcases List.mem_append.mp hq with hq | hq
      · exact hpending q (List.mem_cons_of_mem _ hq)
      · exact .inr (hfresh q (List.mem_filter.mp hq).1).2

/-- When every queue met has been expanded or is in the worklist, the traversal ends with a set
that no production edge leaves, except back to the origin. -/
theorem spread_closed {met : NameSet} {pending : List String}
    (h : ∀ p, p = origin ∨ p ∈ met →
      p ∈ pending ∨ ∀ t, w.Produces p t → t = origin ∨ t ∈ met) :
    ∀ p, p = origin ∨ p ∈ w.spread origin met pending →
      ∀ t, w.Produces p t → t = origin ∨ t ∈ w.spread origin met pending := by
  fun_induction spread w origin met pending with
  | case1 met => exact fun p hp ↦ (h p hp).resolve_left List.not_mem_nil
  | case2 met queue pending fresh ih =>
    refine ih fun p hp ↦ ?_
    have hqueue : ∀ t, w.Produces queue t → t = origin ∨ t ∈ fresh.foldl NameSet.add met := by
      intro t ht
      by_cases hnew : t ≠ origin ∧ t ∉ met
      · exact .inr (NameSet.mem_foldl_add.mpr
          (.inl (List.mem_filter.mpr ⟨ht, by simpa using hnew⟩)))
      · rw [NameSet.mem_foldl_add]
        tauto
    by_cases hfresh : p ∈ fresh
    · by_cases hmanaged : p ∈ w
      · exact .inl (List.mem_append_right _ (List.mem_filter.mpr ⟨hfresh, by simpa using hmanaged⟩))
      · exact .inr fun t ht ↦ absurd ht.mem hmanaged
    · have hold : p = origin ∨ p ∈ met := by
        rw [NameSet.mem_foldl_add] at hp
        tauto
      rcases h p hold with hp | hp
      · rcases List.mem_cons.mp hp with rfl | hp
        · exact .inr hqueue
        · exact .inl (List.mem_append_left _ hp)
      · exact .inr fun t ht ↦ (hp t ht).imp_right fun ht ↦ NameSet.mem_foldl_add.mpr (.inr ht)

/-- **The queues downstream of a queue** are those it reaches, without itself. -/
theorem mem_downstream : q ∈ w.downstream origin ↔ q ≠ origin ∧ w.Reaches origin q := by
  constructor
  · refine spread_sound (fun q hq ↦ absurd hq (Table.not_mem_empty q)) (fun q hq ↦ ?_) q
    exact .inl (List.mem_singleton.mp hq)
  · rintro ⟨hne, h⟩
    have hclosed : ∀ p, p = origin ∨ p ∈ w.downstream origin →
        ∀ t, w.Produces p t → t = origin ∨ t ∈ w.downstream origin := by
      refine spread_closed fun p hp ↦ .inl ?_
      exact List.mem_singleton.mpr (hp.resolve_right (Table.not_mem_empty p))
    have hmem : q = origin ∨ q ∈ w.downstream origin := by
      induction h with
      | single h => exact hclosed origin (.inl rfl) _ h
      | @tail p q _ h ih =>
        by_cases hp : p = origin
        · exact hclosed p (.inl hp) _ h
        · exact hclosed p (ih hp) _ h
    exact hmem.resolve_left hne

end QueueScaler.Wiring
