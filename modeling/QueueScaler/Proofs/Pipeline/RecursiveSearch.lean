import QueueScaler.Pipeline.Cycle
import QueueScaler.Proofs.Loop
import QueueScaler.Proofs.Pipeline.Reachability
/-!
# The search for a cycle, by recursion and by rounds

The depth-first search for a production cycle can be told in two more ways. By recursion: to visit a
queue is to mark it, to visit whatever its edges lead to, and to mark it done. And by rounds over an
explicit stack: each round takes the queue on top of the stack, looks up the next of its edges by
its number, and puts the queue back. A stack stands for the calls of the recursion that are still
open, so all three find the same.

## Main definitions

* `Wiring.visit`, `Wiring.follow`: the recursive search from a queue, and along some edges.
* `Wiring.recursiveCycle?`: the recursive search from every managed queue in name order.
* `Wiring.unwind`: the open calls that a path stands for.
* `Wiring.Cursor`, `Wiring.Hunt`, `Wiring.Hunt.round`: the search by rounds.

## Main results

* `Wiring.search_eq_unwind`: a search from a path returns from the calls that the path stands for.
* `Wiring.Hunt.ends`: the search by rounds ends, whatever the wiring.
* `Wiring.findCycle?_textbook`: the three searches find the same queue.
-/

namespace QueueScaler.Wiring

variable {R : Type} {w : Wiring R} {marks : Table Mark} {path : List Frame}
  {queue target : String} {pending : List String}

/-! ### The recursive search -/

/-- The marks at a later moment of a search. They mark as many managed queues at least. -/
abbrev Later (w : Wiring R) (marks : Table Mark) :=
  { later : Table Mark // w.unseen later ≤ w.unseen marks }

theorem unseen_insert_le (w : Wiring R) (marks : Table Mark) (queue : String) (mark : Mark) :
    w.unseen (marks.insert queue mark) ≤ w.unseen marks :=
  w.unseen_le fun _ hq ↦ Table.mem_insert.mpr (.inr hq)

mutual

/-- Visits a queue that has not been met yet: it is being visited until all its edges have been
followed, and done then. -/
def visit (w : Wiring R) (marks : Table Mark) (queue : String) (_ : queue ∉ marks) :
    Except String (w.Later marks) :=
  match follow w (marks.insert queue .visiting) (w.targets queue) with
  | .error q => .error q
  | .ok ⟨below, hbelow⟩ =>
    .ok ⟨below.insert queue .done, Nat.le_trans (w.unseen_insert_le ..)
      (Nat.le_trans hbelow (w.unseen_insert_le ..))⟩
  termination_by (w.unseen marks, 1)
  decreasing_by
    by_cases hw : queue ∈ w
    · exact Prod.Lex.left _ _ (w.unseen_lt (fun q hq ↦ Table.mem_insert.mpr (.inr hq)) hw
        ‹queue ∉ marks› (Table.mem_insert.mpr (.inl rfl)))
    -- A queue that is not managed has no edges to follow.
    · rw [targets_of_not_mem hw]
      rcases Nat.lt_or_eq_of_le (w.unseen_insert_le marks queue .visiting) with h | h
      · exact Prod.Lex.left _ _ h
      · rw [h]; exact Prod.Lex.right _ (by simp)

/-- Follows the edges to some targets, one after the other. An edge to a queue that is being visited
closes a cycle, and the search ends with that queue. -/
def follow (w : Wiring R) (marks : Table Mark) : List String → Except String (w.Later marks)
  | [] => .ok ⟨marks, Nat.le_refl _⟩
  | target :: pending =>
    match hm : marks.get? target with
    | some .visiting => .error target
    | some .done => follow w marks pending
    | none =>
      match visit w marks target (Table.not_mem_iff_get?.mpr hm) with
      | .error q => .error q
      | .ok ⟨after, hafter⟩ =>
        match follow w after pending with
        | .error q => .error q
        | .ok ⟨last, hlast⟩ => .ok ⟨last, Nat.le_trans hlast hafter⟩
  termination_by pending => (w.unseen marks, 2 * pending.length)
  decreasing_by
    · exact Prod.Lex.right _ (by simp)
    · exact Prod.Lex.right _ (by simp; omega)
    · rcases Nat.lt_or_eq_of_le hafter with h | h
      · exact Prod.Lex.left _ _ h
      · rw [h]; exact Prod.Lex.right _ (by simp)

end

/-- Visits a queue, unless it has been met already. -/
def visitFrom (w : Wiring R) (marks : Table Mark) (queue : String) : Except String (Table Mark) :=
  if h : queue ∈ marks then .ok marks else (visit w marks queue h).map Subtype.val

/-- A queue on a production cycle: the one that visiting every managed queue in name order ends
with. -/
def recursiveCycle? (w : Wiring R) : Option String :=
  match w.keys.foldlM (visitFrom w) ∅ with
  | .error queue => some queue
  | .ok _ => none

/-! ### One call at a time -/

/-- The marks that a visit leaves are those that following the edges of the queue leaves, with the
queue done. -/
theorem map_visit (w : Wiring R) (marks : Table Mark) (hnew : queue ∉ marks) :
    (visit w marks queue hnew).map Subtype.val =
      (follow w (marks.insert queue .visiting) (w.targets queue)).map
        (·.val.insert queue .done) := by
  rw [visit]
  cases follow w (marks.insert queue .visiting) (w.targets queue) <;> rfl

theorem follow_of_visiting (h : marks.get? target = some .visiting) :
    follow w marks (target :: pending) = .error target := by
  rw [follow]
  split
  · rfl
  · rename_i h'
    cases h.symm.trans h'
  · rename_i h'
    cases h.symm.trans h'

theorem follow_of_done (h : marks.get? target = some .done) :
    follow w marks (target :: pending) = follow w marks pending := by
  rw [follow]
  split
  · rename_i h'
    cases h.symm.trans h'
  · rfl
  · rename_i h'
    cases h.symm.trans h'

/-- An edge to a queue that has not been met is followed by a visit, before the edges after it. -/
theorem map_follow_of_new (hnew : target ∉ marks) :
    (follow w marks (target :: pending)).map Subtype.val =
      ((visit w marks target hnew).map Subtype.val).bind fun after ↦
        (follow w after pending).map Subtype.val := by
  have h := Table.not_mem_iff_get?.mp hnew
  rw [follow]
  split
  · rename_i h'
    cases h.symm.trans h'
  · rename_i h'
    cases h.symm.trans h'
  · rcases visit w marks target hnew with _ | ⟨after, _⟩
    · rfl
    · simp only [Except.map, Except.bind]
      cases follow w after pending <;> rfl

/-! ### The calls that a path stands for -/

/-- Returns from the calls that a path stands for, innermost first: each follows the edges left to
it and is done with its queue. -/
def unwind (w : Wiring R) (marks : Table Mark) : List Frame → Except String (Table Mark)
  | [] => .ok marks
  | ⟨queue, pending⟩ :: path =>
    ((follow w marks pending).map Subtype.val).bind fun later ↦
      unwind w (later.insert queue .done) path

theorem insert_insert (marks : Table Mark) (queue : String) (mark mark' : Mark) :
    (marks.insert queue mark).insert queue mark' = marks.insert queue mark' := by
  refine Table.ext_get? fun q ↦ ?_
  rw [Table.get?_insert, Table.get?_insert, Table.get?_insert]
  split <;> rfl

/-- **A search from a path returns from the calls that the path stands for.** -/
theorem search_eq_unwind (w : Wiring R) (marks : Table Mark) (path : List Frame) :
    w.search marks path = w.unwind marks path := by
  fun_induction search w marks path with
  | case1 marks => rfl
  | case2 marks queue path ih =>
    rw [ih, unwind, follow]
    rfl
  | case3 marks queue target pending path hv =>
    rw [unwind, follow_of_visiting hv]
    rfl
  | case4 marks queue target pending path hd ih => rw [ih, unwind, unwind, follow_of_done hd]
  | case5 marks queue target pending path hnew hw ih =>
    rw [ih, unwind, unwind, map_follow_of_new (Table.not_mem_iff_get?.mpr hnew), map_visit]
    cases follow w (marks.insert target .visiting) (w.targets target) <;> rfl
  | case6 marks queue target pending path hnew hw ih =>
    rw [ih, unwind, unwind, map_follow_of_new (Table.not_mem_iff_get?.mpr hnew), map_visit,
      targets_of_not_mem hw, follow, Except.map, Except.bind, insert_insert]

theorem searchFrom_eq_visitFrom (w : Wiring R) (marks : Table Mark) (queue : String) :
    w.searchFrom marks queue = w.visitFrom marks queue := by
  rw [searchFrom, visitFrom]
  split
  · rfl
  · rw [search_eq_unwind, unwind, map_visit]
    cases follow w (marks.insert queue .visiting) (w.targets queue) <;> rfl

/-! ### The search by rounds -/

/-- A queue on the path of a search by rounds. -/
structure Cursor where
  /-- The queue. -/
  queue : String
  /-- How many of its edges have been followed, in name order. -/
  followed : Nat

/-- What a queue on the path has left to follow. -/
def Cursor.frame (w : Wiring R) (c : Cursor) : Frame :=
  ⟨c.queue, (w.targets c.queue).drop c.followed⟩

theorem Cursor.frame_zero (w : Wiring R) (queue : String) :
    Cursor.frame w ⟨queue, 0⟩ = ⟨queue, w.targets queue⟩ := rfl

/-- The state of a search by rounds. -/
structure Hunt where
  /-- The marks. -/
  marks : Table Mark
  /-- The queues on the path, innermost first. -/
  path : List Cursor
  /-- The queues still to start from. -/
  starts : List String

namespace Hunt

/-- The search before its first round: it is to start from every managed queue in name order. -/
def start (w : Wiring R) : Hunt := ⟨∅, [], w.keys⟩

/-- A round of the search. It looks up the next edge of the innermost queue of the path by its
number; without one the queue is done. On an empty path the search starts anew. -/
def round (w : Wiring R) (h : Hunt) : Except String (Option Hunt) :=
  match h.path with
  | ⟨queue, followed⟩ :: path =>
    match (w.targets queue)[followed]? with
    | none => .ok (some { h with marks := h.marks.insert queue .done, path })
    | some target =>
      match h.marks.get? target with
      | some .visiting => .error target
      | some .done => .ok (some { h with path := ⟨queue, followed + 1⟩ :: path })
      | none =>
        .ok (some { h with
          marks := h.marks.insert target .visiting
          path := ⟨target, 0⟩ :: ⟨queue, followed + 1⟩ :: path })
  | [] =>
    match h.starts with
    | [] => .ok none
    | start :: starts =>
      if start ∈ h.marks then .ok (some { h with starts })
      else .ok (some ⟨h.marks.insert start .visiting, [⟨start, 0⟩], starts⟩)

/-- Whether the search by rounds from a state comes to what a search of its path comes to: it ends
with the queue that closes a cycle, or goes on from the marks, with an empty path. -/
def Concludes (w : Wiring R) (h : Hunt) : Except String (Table Mark) → Prop
  | .error q => Ends (round w) h (.error q)
  | .ok marks => ∀ outcome, Ends (round w) ⟨marks, [], h.starts⟩ outcome → Ends (round w) h outcome

theorem Concludes.of_round {h h' : Hunt} {result : Except String (Table Mark)}
    (hresult : h'.Concludes w result) (hround : round w h = .ok (some h'))
    (hstarts : h'.starts = h.starts) : h.Concludes w result := by
  cases result with
  | error q => exact .next hround hresult
  | ok marks => exact fun outcome hends ↦ .next hround (hresult outcome (hstarts ▸ hends))

end Hunt

/-- The innermost queue of a path, when all its edges have been followed. -/
theorem Cursor.exists_of_map_nil {cursors : List Cursor}
    (h : cursors.map (Cursor.frame w) = ⟨queue, []⟩ :: path) :
    ∃ followed outer, cursors = ⟨queue, followed⟩ :: outer ∧
      (w.targets queue)[followed]? = none ∧ outer.map (Cursor.frame w) = path := by
  obtain ⟨⟨name, followed⟩, outer, rfl, hframe, rfl⟩ := List.map_eq_cons_iff.mp h
  simp only [frame, Frame.mk.injEq] at hframe
  obtain ⟨rfl, hdrop⟩ := hframe
  exact ⟨followed, outer, rfl, List.getElem?_eq_none (List.drop_eq_nil_iff.mp hdrop), rfl⟩

/-- The innermost queue of a path, when an edge is left to follow: its number is the number of edges
followed. -/
theorem Cursor.exists_of_map_cons {cursors : List Cursor}
    (h : cursors.map (Cursor.frame w) = ⟨queue, target :: pending⟩ :: path) :
    ∃ followed outer, cursors = ⟨queue, followed⟩ :: outer ∧
      (w.targets queue)[followed]? = some target ∧
      (⟨queue, followed + 1⟩ :: outer).map (Cursor.frame w) = ⟨queue, pending⟩ :: path := by
  obtain ⟨⟨name, followed⟩, outer, rfl, hframe, rfl⟩ := List.map_eq_cons_iff.mp h
  simp only [frame, Frame.mk.injEq] at hframe
  obtain ⟨rfl, hdrop⟩ := hframe
  refine ⟨followed, outer, rfl, ?_, ?_⟩
  · have hhead : ((w.targets name).drop followed)[0]? = (w.targets name)[followed]? :=
      List.getElem?_drop
    rw [hdrop] at hhead
    exact hhead.symm
  · rw [List.map_cons, frame, ← List.tail_drop, hdrop, List.tail_cons]

namespace Hunt

/-- **The search by rounds comes to what the search of its path comes to.** -/
theorem concludes_search (w : Wiring R) (h : Hunt) :
    h.Concludes w (w.search h.marks (h.path.map (Cursor.frame w))) := by
  obtain ⟨marks, cursors, starts⟩ := h
  generalize hpath : cursors.map (Cursor.frame w) = path
  simp only
  fun_induction search w marks path generalizing cursors with
  | case1 marks =>
    obtain rfl := List.map_eq_nil_iff.mp hpath
    exact fun _ hends ↦ hends
  | case2 marks queue path ih =>
    obtain ⟨followed, outer, rfl, hnone, rfl⟩ := Cursor.exists_of_map_nil hpath
    refine (ih outer rfl).of_round ?_ rfl
    simp only [round, hnone]
  | case3 marks queue target pending path hv =>
    obtain ⟨followed, outer, rfl, hsome, -⟩ := Cursor.exists_of_map_cons hpath
    refine .fail ?_
    simp only [round, hsome, hv]
  | case4 marks queue target pending path hd ih =>
    obtain ⟨followed, outer, rfl, hsome, hrest⟩ := Cursor.exists_of_map_cons hpath
    refine (ih _ hrest).of_round ?_ rfl
    simp only [round, hsome, hd]
  | case5 marks queue target pending path hnew hw ih =>
    obtain ⟨followed, outer, rfl, hsome, hrest⟩ := Cursor.exists_of_map_cons hpath
    have htop : (⟨target, 0⟩ :: ⟨queue, followed + 1⟩ :: outer).map (Cursor.frame w) =
        ⟨target, w.targets target⟩ :: ⟨queue, pending⟩ :: path := by
      rw [List.map_cons, hrest, Cursor.frame_zero]
    refine (ih _ htop).of_round ?_ rfl
    simp only [round, hsome, hnew]
  | case6 marks queue target pending path hnew hw ih =>
    obtain ⟨followed, outer, rfl, hsome, hrest⟩ := Cursor.exists_of_map_cons hpath
    -- A target that is not managed is on the path for one round, which finds no edge.
    have hback : round w ⟨marks.insert target .visiting,
          ⟨target, 0⟩ :: ⟨queue, followed + 1⟩ :: outer, starts⟩ =
        .ok (some ⟨marks.insert target .done, ⟨queue, followed + 1⟩ :: outer, starts⟩) := by
      simp only [round, targets_of_not_mem hw, List.getElem?_nil, insert_insert]
    refine ((ih _ hrest).of_round hback rfl).of_round ?_ rfl
    simp only [round, hsome, hnew]

/-- The search by rounds ends, with the queue that closes the first cycle or with every start used
up. -/
theorem ends (w : Wiring R) (marks : Table Mark) (starts : List String) :
    Ends (round w) ⟨marks, [], starts⟩
      ((starts.foldlM w.searchFrom marks).map fun marks ↦ ⟨marks, [], []⟩) := by
  induction starts generalizing marks with
  | nil => exact .stop rfl
  | cons queue starts ih =>
    rw [List.foldlM_cons, searchFrom]
    split
    · rename_i hmem
      refine .next (t := ⟨marks, [], starts⟩) ?_ (ih marks)
      simp only [round, if_pos hmem]
    · rename_i hnew
      have hsearch := concludes_search w ⟨marks.insert queue .visiting, [⟨queue, 0⟩], starts⟩
      refine .next (t := ⟨marks.insert queue .visiting, [⟨queue, 0⟩], starts⟩) ?_ ?_
      · simp only [round, if_neg hnew]
      · simp only [List.map_cons, List.map_nil, Cursor.frame_zero] at hsearch
        cases hs : w.search (marks.insert queue .visiting) [⟨queue, w.targets queue⟩] with
        | error q =>
          rw [hs] at hsearch
          exact hsearch
        | ok final =>
          rw [hs] at hsearch
          exact hsearch _ (ih final)

end Hunt

/-- **The search for a cycle is the textbook one,** on every wiring. The search by rounds, over a
stack of queues and numbers of edges, ends: it fails with the queue that `findCycle?` names, and
finds nothing left to do if that names none. And what `findCycle?` names is what the recursive
search ends with, which visits every managed queue not yet met in name order, follows edges in name
order, takes a queue for being visited from entry to exit and for done afterwards, finds no edges at
a queue that is not managed, and stops at the first edge to a queue being visited. -/
theorem findCycle?_textbook (w : Wiring R) :
    (∀ queue, w.findCycle? = some queue ↔ Ends (Hunt.round w) (.start w) (.error queue)) ∧
      (w.findCycle? = none ↔ ∃ final, Ends (Hunt.round w) (.start w) (.ok final)) ∧
      w.findCycle? = w.recursiveCycle? := by
  have hends : Ends (Hunt.round w) (.start w) _ := Hunt.ends w ∅ w.keys
  have hrecursive : w.searchFrom = w.visitFrom := by
    funext marks queue
    exact searchFrom_eq_visitFrom w marks queue
  rw [recursiveCycle?, ← hrecursive, findCycle?]
  rcases hfound : w.keys.foldlM w.searchFrom ∅ with found | final
  · rw [hfound] at hends
    refine ⟨fun queue ↦ ⟨fun h ↦ ?_, fun h ↦ ?_⟩, ?_, rfl⟩
    · cases h
      exact hends
    · cases hends.unique h
      rfl
    · exact iff_of_false (Option.some_ne_none found) fun ⟨_, h⟩ ↦ by cases hends.unique h
  · rw [hfound] at hends
    refine ⟨fun queue ↦ ⟨fun h ↦ ?_, fun h ↦ ?_⟩, iff_of_true rfl ⟨_, hends⟩, rfl⟩
    · cases h
    · cases hends.unique h

end QueueScaler.Wiring
