import QueueScaler.Proofs.Pipeline.Plan
import QueueScaler.Proofs.Pipeline.Validity
/-!
# Wirings that share no queue

Two wirings are apart if no queue name occurs in both, be it managed or a target. Side by side they
make one wiring, whose names interleave in any way. A search, a walk or a sum in it never leaves the
part where it begins, so it takes the same steps in the same order as in that part alone.

## Main definitions

* `Table.merge`, `Table.Splits`: two tables in one, and one table that falls into two.
* `Wiring.Occurs`, `Wiring.Apart`: the names of a wiring, and wirings without a common name.
* `Wiring.beside`: two wirings side by side.

## Main results

* `Wiring.propagate_congr`: propagation looks at nothing but the queues that its origin touches.
* `Wiring.Apart.fault?_beside_eq_none_iff`: two wirings side by side pass the checks if both do.
* `Wiring.Apart.splits_originRates`, `Wiring.Apart.splits_followUpRates`,
  `Wiring.Apart.splits_plan_total`: each kind of rates falls into those of the parts.
* `Wiring.Apart.max?_needs`: a service needs the most that it needs in either part.
-/

namespace QueueScaler

/-! ### Two tables in one -/

namespace Table

variable {α : Type} {t s s' : Table α} {name : String}

/-- Both tables in one. Where both have a value, `f` makes one of the two. -/
def merge (f : α → α → α) (s t : Table α) : Table α :=
  t.fold (fun sum name value ↦ sum.alter name fun old ↦ (old.map (f · value)).getD value) s

theorem get?_merge (f : α → α → α) (s t : Table α) (name : String) :
    (s.merge f t).get? name = (s.get? name).merge f (t.get? name) := by
  have h := view_fold (fun sum : Table α ↦ sum.get? name)
    (f := fun sum name value ↦ sum.alter name fun old ↦ (old.map (f · value)).getD value)
    (g := fun value old ↦ some ((old.map (f · value)).getD value))
    (fun sum key value hne ↦ by rw [get?_alter, if_neg (Ne.symm hne)])
    (fun sum value ↦ get?_alter_self ..) t s
  refine Eq.trans h ?_
  cases s.get? name <;> cases t.get? name <;> rfl

/-- Whether a table falls into two others without a common name. -/
structure Splits (t s s' : Table α) : Prop where
  /-- Its values are those of the one and of the other. -/
  get? : ∀ name, t.get? name = (s.get? name).or (s'.get? name)
  /-- No name occurs in both. -/
  disjoint : ∀ name ∈ s, name ∉ s'

namespace Splits

variable (h : t.Splits s s')

include h

theorem symm : t.Splits s' s where
  get? name := by
    rw [h.get?]
    by_cases hs : name ∈ s
    · rw [Table.not_mem_iff_get?.mp (h.disjoint name hs), Option.or_none, Option.none_or]
    · rw [Table.not_mem_iff_get?.mp hs, Option.or_none, Option.none_or]
  disjoint name hs' hs := h.disjoint name hs hs'

theorem get?_left (hname : name ∈ s) : t.get? name = s.get? name := by
  rw [h.get?, Table.not_mem_iff_get?.mp (h.disjoint name hname), Option.or_none]

theorem get?_right (hname : name ∈ s') : t.get? name = s'.get? name := by
  rw [h.get?, Table.not_mem_iff_get?.mp fun hs ↦ h.disjoint name hs hname, Option.none_or]

theorem mem_iff : name ∈ t ↔ name ∈ s ∨ name ∈ s' := by
  simp only [mem_iff_get?, h.get?]
  cases s.get? name <;> simp

end Splits

end Table

namespace Wiring

variable {R : Type} {w w' : Wiring R} {origin p q s : String}

/-! ### What propagation looks at -/

section Locality

variable (h : ∀ q, w.Touches origin q → w'.get? q = w.get? q)

include h

theorem edges_congr (hq : w.Touches origin q) : w'.edges q = w.edges q := by
  rw [edges, edges, h q hq]

theorem mem_congr (hq : w.Touches origin q) : q ∈ w' ↔ q ∈ w := by
  rw [Table.mem_iff_get?, Table.mem_iff_get?, h q hq]

theorem countInflows_congr {degrees : Table Nat} {pending : List String}
    (hpending : ∀ q ∈ pending, w.Touches origin q) :
    w'.countInflows degrees pending = w.countInflows degrees pending := by
  fun_induction countInflows w degrees pending with
  | case1 degrees => rw [countInflows]
  | case2 degrees queue pending targets fresh ih =>
    have hqueue : w.Touches origin queue := hpending queue List.mem_cons_self
    have htargets : w'.targets queue = w.targets queue := by
      rw [Wiring.targets, Wiring.targets, edges_congr h hqueue]
    have hfresh : ∀ t ∈ fresh, w.Touches origin t := fun t ht ↦
      hqueue.tail (List.mem_filter.mp ht).1
    have hmanaged : fresh.filter (· ∈ w') = fresh.filter (· ∈ w) :=
      List.filter_congr fun t ht ↦ decide_eq_decide.mpr (mem_congr h (hfresh t ht))
    rw [countInflows, htargets, hmanaged]
    refine ih fun q hq ↦ ?_
    rcases List.mem_append.mp hq with hq | hq
    · exact hpending q (List.mem_cons_of_mem _ hq)
    · exact hfresh q (List.mem_filter.mp hq).1

theorem run_congr [Zero R] [Add R] [Mul R] {f : Flow R}
    (hready : ∀ q ∈ f.ready, w.Touches origin q) : f.run w' = f.run w := by
  have hexpand {f : Flow R} (hready : ∀ q ∈ f.ready, w.Touches origin q) :
      f.expand? w' = f.expand? w := by
    rw [Flow.expand?, Flow.expand?]
    split
    · rfl
    · rename_i queue ready heq
      rw [edges_congr h (hready queue (heq ▸ List.mem_cons_self))]
  fun_induction Flow.run w f with
  | case1 f hnone =>
    rw [Flow.run]
    split
    · rfl
    · rename_i g hg
      rw [hexpand hready, hnone] at hg
      cases hg
  | case2 f g hg ih =>
    rw [Flow.run]
    split
    · rename_i hnone
      rw [hexpand hready, hg] at hnone
      cases hnone
    · rename_i g' hg'
      rw [hexpand hready, hg] at hg'
      obtain rfl := Option.some.inj hg'
      obtain ⟨queue, ready, heq, -, hnext, -⟩ := Flow.of_expand? hg
      refine ih fun q hq ↦ ?_
      rw [hnext] at hq
      rcases List.mem_append.mp hq with hq | hq
      · exact hready q (heq ▸ List.mem_cons_of_mem _ hq)
      · exact (hready queue (heq ▸ List.mem_cons_self)).tail (List.mem_filter.mp hq).1

/-- **Propagation looks at nothing but the queues that its origin touches,** in any arithmetic. -/
theorem propagate_congr [Zero R] [Add R] [Mul R] (x : R) :
    w'.propagate origin x = w.propagate origin x := by
  have hself : w.Touches origin origin := .refl origin
  have hdegrees : w'.inDegrees origin = w.inDegrees origin :=
    countInflows_congr h fun q hq ↦ List.mem_singleton.mp hq ▸ hself
  have hrun : (Flow.start origin x (w.inDegrees origin)).run w' =
      (Flow.start origin x (w.inDegrees origin)).run w :=
    run_congr h fun q hq ↦ List.mem_singleton.mp hq ▸ hself
  simp only [propagate, hdegrees, hrun, mem_congr h hself]

end Locality

/-! ### Two wirings side by side -/

/-- Whether a name occurs in a wiring, managed or as a target. -/
def Occurs (w : Wiring R) (q : String) : Prop := q ∈ w ∨ ∃ p, w.Produces p q

/-- Whether no name occurs in both of two wirings. -/
def Apart (w w' : Wiring R) : Prop := ∀ q, w.Occurs q → ¬ w'.Occurs q

/-- Two wirings side by side. -/
def beside (w w' : Wiring R) : Wiring R := w.merge (fun b _ ↦ b) w'

/-- The names of a wiring, some of them repeatedly. -/
def names (w : Wiring R) : List String := w.keys ++ w.keys.flatMap w.targets

theorem mem_names : q ∈ w.names ↔ w.Occurs q := by
  simp only [names, List.mem_append, List.mem_flatMap, Table.mem_keys_iff, Occurs]
  exact or_congr_right (exists_congr fun p ↦ and_iff_right_of_imp Produces.mem)

instance decidableApart (w w' : Wiring R) : Decidable (w.Apart w') :=
  decidable_of_iff (∀ q ∈ w.names, q ∉ w'.names) (by simp only [mem_names, Apart])

theorem Reaches.occurs_left (h : w.Reaches p q) : w.Occurs p := .inl h.mem

theorem Reaches.occurs_right (h : w.Reaches p q) : w.Occurs q := by
  obtain ⟨r, -, hr⟩ := h.exists_producer
  exact .inr ⟨r, hr⟩

theorem Touches.occurs (h : w.Touches p q) (hp : w.Occurs p) : w.Occurs q := by
  rcases h with rfl | h
  · exact hp
  · exact h.occurs_right

namespace Apart

variable (h : w.Apart w')

include h

theorem symm : w'.Apart w := fun q hq' hq ↦ h q hq hq'

theorem get?_right_eq_none (hq : w.Occurs q) : w'.get? q = none :=
  Table.not_mem_iff_get?.mp fun hmem ↦ h q hq (.inl hmem)

/-- The wiring side by side has the bindings of the one and of the other. -/
theorem splits_beside : Table.Splits (w.beside w') w w' where
  get? q := by
    rw [beside, Table.get?_merge]
    cases w.get? q <;> cases w'.get? q <;> rfl
  disjoint q hq hq' := h q (.inl hq) (.inl hq')

theorem beside_comm : w.beside w' = w'.beside w := by
  refine Table.ext_get? fun q ↦ ?_
  rw [h.splits_beside.get?, h.symm.splits_beside.get?]
  by_cases hq : w.Occurs q
  · rw [h.get?_right_eq_none hq, Option.or_none, Option.none_or]
  · rw [Table.not_mem_iff_get?.mp fun hmem ↦ hq (.inl hmem), Option.or_none, Option.none_or]

theorem get?_beside (hq : w.Occurs q) : (w.beside w').get? q = w.get? q := by
  rw [h.splits_beside.get?, h.get?_right_eq_none hq, Option.or_none]

theorem mem_beside_iff : q ∈ w.beside w' ↔ q ∈ w ∨ q ∈ w' := h.splits_beside.mem_iff

theorem produces_beside (hp : w.Occurs p) : (w.beside w').Produces p q ↔ w.Produces p q := by
  rw [Produces, Produces, targets, targets, edges, edges, h.get?_beside hp]

/-- Each production edge belongs to one of the parts. -/
theorem produces_beside_iff :
    (w.beside w').Produces p q ↔ w.Produces p q ∨ w'.Produces p q := by
  constructor
  · intro hpq
    rcases h.mem_beside_iff.mp hpq.mem with hp | hp
    · exact .inl ((h.produces_beside (.inl hp)).mp hpq)
    · rw [h.beside_comm] at hpq
      exact .inr ((h.symm.produces_beside (.inl hp)).mp hpq)
  · rintro (hpq | hpq)
    · exact (h.produces_beside (.inl hpq.mem)).mpr hpq
    · rw [h.beside_comm]
      exact (h.symm.produces_beside (.inl hpq.mem)).mpr hpq

theorem occurs_beside_iff : (w.beside w').Occurs q ↔ w.Occurs q ∨ w'.Occurs q := by
  simp only [Occurs, h.mem_beside_iff, h.produces_beside_iff, exists_or]
  tauto

/-- No path leads from one part into the other. -/
theorem reaches_beside_iff : (w.beside w').Reaches p q ↔ w.Reaches p q ∨ w'.Reaches p q := by
  constructor
  · intro hpq
    induction hpq with
    | single hpq => exact (h.produces_beside_iff.mp hpq).imp Produces.reaches Produces.reaches
    | tail _ hqt ih =>
      rcases h.produces_beside_iff.mp hqt with hqt | hqt
      · refine .inl ((ih.resolve_right fun hpq ↦ ?_).tail hqt)
        exact h _ (.inl hqt.mem) hpq.occurs_right
      · refine .inr ((ih.resolve_left fun hpq ↦ ?_).tail hqt)
        exact h _ hpq.occurs_right (.inl hqt.mem)
  · rintro (hpq | hpq)
    · exact Relation.TransGen.mono (fun _ _ he ↦ h.produces_beside_iff.mpr (.inl he)) _ _ hpq
    · exact Relation.TransGen.mono (fun _ _ he ↦ h.produces_beside_iff.mpr (.inr he)) _ _ hpq

theorem reaches_beside (hq : w.Occurs q) : (w.beside w').Reaches p q ↔ w.Reaches p q := by
  rw [h.reaches_beside_iff, or_iff_left fun hpq : w'.Reaches p q ↦ h q hq hpq.occurs_right]

theorem acyclic_beside_iff : (w.beside w').Acyclic ↔ w.Acyclic ∧ w'.Acyclic := by
  simp only [Acyclic, h.reaches_beside_iff, not_or, forall_and]

theorem ratesFit_beside_iff [Rate R] : (w.beside w').RatesFit ↔ w.RatesFit ∧ w'.RatesFit := by
  constructor
  · intro hfit
    refine ⟨fun q b hb ↦ hfit q b ?_, fun q b hb ↦ hfit q b ?_⟩
    · exact (h.get?_beside (.inl (Table.mem_iff_get?.mpr ⟨b, hb⟩))).trans hb
    · rw [h.beside_comm]
      exact (h.symm.get?_beside (.inl (Table.mem_iff_get?.mpr ⟨b, hb⟩))).trans hb
  · rintro ⟨hfit, hfit'⟩ q b hb
    rw [h.splits_beside.get?, Option.or_eq_some_iff] at hb
    rcases hb with hb | ⟨-, hb⟩
    · exact hfit q b hb
    · exact hfit' q b hb

/-- **Two wirings side by side pass the checks exactly if both do.** -/
theorem fault?_beside_eq_none_iff [Rate R] :
    (w.beside w').fault? = none ↔ w.fault? = none ∧ w'.fault? = none := by
  rw [fault?_eq_none_iff, fault?_eq_none_iff, fault?_eq_none_iff, h.ratesFit_beside_iff,
    h.acyclic_beside_iff]
  tauto

/-- A table over the names of both parts falls into two if it agrees with each of them on the names
of its part. -/
theorem splits {α : Type} {t s s' : Table α} (ht : ∀ q ∈ t, (w.beside w').Occurs q)
    (hs : ∀ q ∈ s, w.Occurs q) (hs' : ∀ q ∈ s', w'.Occurs q)
    (hleft : ∀ q, w.Occurs q → t.get? q = s.get? q)
    (hright : ∀ q, w'.Occurs q → t.get? q = s'.get? q) : t.Splits s s' where
  get? q := by
    by_cases hq : w.Occurs q
    · rw [hleft q hq, Table.not_mem_iff_get?.mp fun hmem ↦ h q hq (hs' q hmem), Option.or_none]
    · rw [Table.not_mem_iff_get?.mp fun hmem ↦ hq (hs q hmem), Option.none_or]
      by_cases hq' : w'.Occurs q
      · exact hright q hq'
      · have hnone : q ∉ t := fun hmem ↦ (h.occurs_beside_iff.mp (ht q hmem)).elim hq hq'
        rw [Table.not_mem_iff_get?.mp hnone, Table.not_mem_iff_get?.mp fun hmem ↦ hq' (hs' q hmem)]
  disjoint q hq hq' := h q (hs q hq) (hs' q hq')

end Apart

/-! ### The rates of the parts -/

section Origins

variable [Rate R] {decrease : R} {depths depths₁ depths₂ : Table Nat}

theorem occurs_of_mem_originRates (hq : q ∈ w.originRates decrease depths) : w.Occurs q :=
  .inl (mem_of_mem_consumed (mem_originRates.mp hq).1)

theorem Apart.get?_originRates (h : w.Apart w')
    (hdepths : ∀ q ∈ w, depths₁.get? q = depths.get? q) (hq : w.Occurs q) :
    ((w.beside w').originRates decrease depths).get? q =
      (w.originRates decrease depths₁).get? q := by
  rw [Wiring.get?_originRates, Wiring.get?_originRates, get?_consumed, get?_consumed,
    h.get?_beside hq]
  cases hb : w.get? q with
  | none => rfl
  | some b => rw [hdepths q (Table.mem_iff_get?.mpr ⟨b, hb⟩)]

/-- The origin rates fall into those of the parts. -/
theorem Apart.splits_originRates (h : w.Apart w')
    (hdepths₁ : ∀ q ∈ w, depths₁.get? q = depths.get? q)
    (hdepths₂ : ∀ q ∈ w', depths₂.get? q = depths.get? q) :
    ((w.beside w').originRates decrease depths).Splits (w.originRates decrease depths₁)
      (w'.originRates decrease depths₂) := by
  refine h.splits (fun q ↦ occurs_of_mem_originRates) (fun q ↦ occurs_of_mem_originRates)
    (fun q ↦ occurs_of_mem_originRates) (fun q ↦ h.get?_originRates hdepths₁) fun q hq ↦ ?_
  rw [h.beside_comm]
  exact h.symm.get?_originRates hdepths₂ hq

end Origins

section FollowUp

variable [Zero R] [Add R] [Mul R] {origins origins₁ origins₂ : Table R}

theorem occurs_of_mem_followUpRates (hw : w.Acyclic) (hq : q ∈ w.followUpRates origins) :
    w.Occurs q := by
  obtain ⟨o, -, ho⟩ := (mem_followUpRates hw).mp hq
  exact ho.occurs_right

/-- The origins of one part cause there what they cause in both parts side by side. -/
theorem Apart.followUpRates_beside (h : w.Apart w') (horigins : ∀ o ∈ origins, w.Occurs o) :
    (w.beside w').followUpRates origins = w.followUpRates origins := by
  refine List.foldl_ext _ _ _ fun sum e he ↦ ?_
  have ho : w.Occurs e.1 := horigins e.1 (Table.mem_keys_iff.mp (List.mem_map_of_mem he))
  have hpropagate : (w.beside w').propagate e.1 e.2 = w.propagate e.1 e.2 :=
    propagate_congr (fun q hq ↦ h.get?_beside (hq.occurs ho)) e.2
  rw [addFollowUp, addFollowUp, hpropagate]

theorem Apart.get?_followUpRates (h : w.Apart w') (hw : w.Acyclic) (hw' : w'.Acyclic)
    (hsplit : origins.Splits origins₁ origins₂) (h₁ : ∀ o ∈ origins₁, w.Occurs o)
    (h₂ : ∀ o ∈ origins₂, w'.Occurs o) (hq : w.Occurs q) :
    ((w.beside w').followUpRates origins).get? q = (w.followUpRates origins₁).get? q := by
  -- The origins of the other part reach no queue of this one, so they may be left out.
  classical
  let keep : String → R → Bool := fun o _ ↦ decide (w.Occurs o)
  have hfilter : origins.filter keep = origins₁ := by
    refine Table.ext_get? fun o ↦ ?_
    rw [Table.get?_filter, hsplit.get?]
    by_cases ho : w.Occurs o
    · rw [Table.not_mem_iff_get?.mp fun hmem ↦ h o ho (h₂ o hmem), Option.or_none]
      cases origins₁.get? o <;> simp [keep, ho]
    · rw [Table.not_mem_iff_get?.mp fun hmem ↦ ho (h₁ o hmem), Option.none_or]
      cases origins₂.get? o <;> simp [keep, ho]
  have hkeep : ∀ o x, keep o x = false → ¬ (w.beside w').Reaches o q := fun o _ ho hreach ↦
    of_decide_eq_false ho ((h.reaches_beside hq).mp hreach).occurs_left
  rw [← get?_followUpRates_filter (h.acyclic_beside_iff.mpr ⟨hw, hw'⟩) origins keep hkeep, hfilter,
    h.followUpRates_beside h₁]

/-- The follow-up rates fall into those of the parts. -/
theorem Apart.splits_followUpRates (h : w.Apart w') (hw : w.Acyclic) (hw' : w'.Acyclic)
    (hsplit : origins.Splits origins₁ origins₂) (h₁ : ∀ o ∈ origins₁, w.Occurs o)
    (h₂ : ∀ o ∈ origins₂, w'.Occurs o) :
    ((w.beside w').followUpRates origins).Splits (w.followUpRates origins₁)
      (w'.followUpRates origins₂) := by
  refine h.splits (fun q ↦ occurs_of_mem_followUpRates (h.acyclic_beside_iff.mpr ⟨hw, hw'⟩))
    (fun q ↦ occurs_of_mem_followUpRates hw) (fun q ↦ occurs_of_mem_followUpRates hw')
    (fun q ↦ h.get?_followUpRates hw hw' hsplit h₁ h₂) fun q hq ↦ ?_
  rw [h.beside_comm]
  exact h.symm.get?_followUpRates hw' hw hsplit.symm h₂ h₁ hq

end FollowUp

/-- Sums of vectors that fall into two fall into the sums of the parts. -/
theorem splits_addRates [Zero R] [Add R] {into into₁ into₂ other other₁ other₂ : Table R}
    (hinto : into.Splits into₁ into₂) (hother : other.Splits other₁ other₂)
    (hdisjoint : ∀ q, q ∈ into₁ ∨ q ∈ other₁ → ¬ (q ∈ into₂ ∨ q ∈ other₂)) :
    (addRates into other).Splits (addRates into₁ other₁) (addRates into₂ other₂) where
  get? q := by
    simp only [get?_addRates, Table.getD_eq, hinto.get?, hother.get?]
    by_cases hq : q ∈ into₁ ∨ q ∈ other₁
    · obtain ⟨hinto₂, hother₂⟩ := not_or.mp (hdisjoint q hq)
      rw [Table.not_mem_iff_get?.mp hinto₂, Table.not_mem_iff_get?.mp hother₂]
      simp only [Option.or_none]
    · obtain ⟨hinto₁, hother₁⟩ := not_or.mp hq
      rw [Table.not_mem_iff_get?.mp hinto₁, Table.not_mem_iff_get?.mp hother₁]
      simp only [Option.none_or]
  disjoint q hq hq' := hdisjoint q (mem_addRates.mp hq) (mem_addRates.mp hq')

section Plans

variable [Rate R] {origins origins₁ origins₂ : Table R}

theorem occurs_of_mem_plan_total {followUp : Bool} (hw : w.Acyclic)
    (horigins : ∀ o ∈ origins, w.Occurs o) (hq : q ∈ (w.plan followUp origins).total) :
    w.Occurs q := by
  rcases (mem_plan_total hw).mp hq with hq | ⟨-, o, -, ho⟩
  · exact horigins q hq
  · exact ho.occurs_right

/-- What a plan causes downstream falls into what the plans of the parts cause. -/
theorem Apart.splits_plan_followUp (h : w.Apart w') (hw : w.Acyclic) (hw' : w'.Acyclic)
    (hsplit : origins.Splits origins₁ origins₂) (h₁ : ∀ o ∈ origins₁, w.Occurs o)
    (h₂ : ∀ o ∈ origins₂, w'.Occurs o) (followUp : Bool) :
    ((w.beside w').plan followUp origins).followUp.Splits (w.plan followUp origins₁).followUp
      (w'.plan followUp origins₂).followUp := by
  cases followUp with
  | false => exact ⟨fun _ ↦ rfl, fun q hq ↦ absurd hq (Table.not_mem_empty q)⟩
  | true => exact h.splits_followUpRates hw hw' hsplit h₁ h₂

/-- The total rates fall into those of the parts. -/
theorem Apart.splits_plan_total (h : w.Apart w') (hw : w.Acyclic) (hw' : w'.Acyclic)
    (hsplit : origins.Splits origins₁ origins₂) (h₁ : ∀ o ∈ origins₁, w.Occurs o)
    (h₂ : ∀ o ∈ origins₂, w'.Occurs o) (followUp : Bool) :
    ((w.beside w').plan followUp origins).total.Splits (w.plan followUp origins₁).total
      (w'.plan followUp origins₂).total :=
  splits_addRates hsplit (h.splits_plan_followUp hw hw' hsplit h₁ h₂ followUp) fun q hq hq' ↦
    h q (occurs_of_mem_plan_total hw h₁ (mem_addRates.mpr hq))
      (occurs_of_mem_plan_total hw' h₂ (mem_addRates.mpr hq'))

end Plans

/-! ### The demand of the parts -/

theorem Apart.input?_beside (h : w.Apart w') (hq : w.Occurs q) :
    (w.beside w').input? s q = w.input? s q := by
  rw [input?, input?, get?_consumed, get?_consumed, h.get?_beside hq]

section Needs

variable [Rate R] {rates rates₁ rates₂ : Table R}

/-- A service needs what it needs in the one part and what it needs in the other. -/
theorem Apart.mem_needs_beside (h : w.Apart w') (hsplit : rates.Splits rates₁ rates₂)
    (h₁ : ∀ q ∈ rates₁, w.Occurs q) (h₂ : ∀ q ∈ rates₂, w'.Occurs q) {n : Nat} :
    n ∈ (w.beside w').needs s rates ↔ n ∈ w.needs s rates₁ ∨ n ∈ w'.needs s rates₂ := by
  have hinput' : ∀ q ∈ rates₂, (w.beside w').input? s q = w'.input? s q := fun q hq ↦ by
    rw [h.beside_comm, h.symm.input?_beside (h₂ q hq)]
  simp only [mem_needs_iff]
  constructor
  · rintro ⟨q, x, b, hx, hb, hn⟩
    rw [hsplit.get?, Option.or_eq_some_iff] at hx
    rcases hx with hx | ⟨-, hx⟩
    · rw [h.input?_beside (h₁ q (Table.mem_iff_get?.mpr ⟨x, hx⟩))] at hb
      exact .inl ⟨q, x, b, hx, hb, hn⟩
    · rw [hinput' q (Table.mem_iff_get?.mpr ⟨x, hx⟩)] at hb
      exact .inr ⟨q, x, b, hx, hb, hn⟩
  · rintro (⟨q, x, b, hx, hb, hn⟩ | ⟨q, x, b, hx, hb, hn⟩)
    · have hq : q ∈ rates₁ := Table.mem_iff_get?.mpr ⟨x, hx⟩
      exact ⟨q, x, b, (hsplit.get?_left hq).trans hx, (h.input?_beside (h₁ q hq)).trans hb, hn⟩
    · have hq : q ∈ rates₂ := Table.mem_iff_get?.mpr ⟨x, hx⟩
      exact ⟨q, x, b, (hsplit.get?_right hq).trans hx, (hinput' q hq).trans hb, hn⟩

/-- The greatest element of a list whose elements are those of two others. -/
theorem max?_of_mem_iff {l l₁ l₂ : List Nat} (h : ∀ n, n ∈ l ↔ n ∈ l₁ ∨ n ∈ l₂) :
    l.max? = l₁.max?.merge max l₂.max? := by
  have hnil {l : List Nat} (hl : l.max? = none) (n : Nat) : n ∉ l := by
    rw [List.max?_eq_none_iff.mp hl]
    exact List.not_mem_nil
  rcases h₁ : l₁.max? with _ | a <;> rcases h₂ : l₂.max? with _ | b
  · refine List.max?_eq_none_iff.mpr (List.eq_nil_iff_forall_not_mem.mpr fun n hn ↦ ?_)
    exact ((h n).mp hn).elim (hnil h₁ n) (hnil h₂ n)
  · obtain ⟨hb, hle⟩ := List.max?_eq_some_iff.mp h₂
    exact List.max?_eq_some_iff.mpr ⟨(h b).mpr (.inr hb), fun n hn ↦
      hle n (((h n).mp hn).resolve_left (hnil h₁ n))⟩
  · obtain ⟨ha, hle⟩ := List.max?_eq_some_iff.mp h₁
    exact List.max?_eq_some_iff.mpr ⟨(h a).mpr (.inl ha), fun n hn ↦
      hle n (((h n).mp hn).resolve_right (hnil h₂ n))⟩
  · obtain ⟨ha, hlea⟩ := List.max?_eq_some_iff.mp h₁
    obtain ⟨hb, hleb⟩ := List.max?_eq_some_iff.mp h₂
    refine List.max?_eq_some_iff.mpr ⟨?_, fun n hn ↦ ?_⟩
    · rcases max_choice a b with hmax | hmax <;> rw [hmax]
      · exact (h a).mpr (.inl ha)
      · exact (h b).mpr (.inr hb)
    · exact ((h n).mp hn).elim (fun hn ↦ le_max_of_le_left (hlea n hn))
        fun hn ↦ le_max_of_le_right (hleb n hn)

/-- **A service needs the most that it needs in either part.** -/
theorem Apart.max?_needs (h : w.Apart w') (hsplit : rates.Splits rates₁ rates₂)
    (h₁ : ∀ q ∈ rates₁, w.Occurs q) (h₂ : ∀ q ∈ rates₂, w'.Occurs q) (s : String) :
    ((w.beside w').needs s rates).max? =
      (w.needs s rates₁).max?.merge max (w'.needs s rates₂).max? :=
  max?_of_mem_iff fun _ ↦ h.mem_needs_beside hsplit h₁ h₂

end Needs

end Wiring

end QueueScaler
