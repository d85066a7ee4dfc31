/-!
# Finite maps from names

A table holds one value for each of finitely many names and lists its entries in increasing
order of the names. The order is part of the type, so two tables with the same values at the
same names are equal, and every traversal visits the names in the same order whatever the history
of the table.

## Main definitions

* `Table`: the entries, strictly increasing by name.
* `Table.get?`, `Table.alter`, `Table.insert`: the value at a name, and its change.
* `Table.fold`, `Table.map`, `Table.filter`, `Table.ofList`: traversals in name order.
* `NameSet`: a set of names, as a table without values.

## Main results

* `Table.ext_get?`: a table is determined by its values.
* `Table.get?_alter`, `Table.get?_insert`: what each operation does to the values.
* `Table.mem_keys_iff`, `Table.mem_entries_iff`: names and entries, read off the values.
* `Table.exists_of_findSome?_entries`: a search through the entries stops at the first find.
* `Table.view_fold`: what a traversal does to one part of a state that only one name touches.
* `NameSet.mem_union`: the names of a union.
-/

namespace QueueScaler

universe u v w

/-- A finite map from names to values, listed in strictly increasing order of the names. -/
structure Table (α : Type u) where
  /-- The entries, in name order. -/
  entries : List (String × α)
  /-- Each name occurs once, and the names increase. -/
  ordered : entries.Pairwise (fun a b ↦ a.1 < b.1)

namespace Table

variable {α : Type u} {β : Type v}

/-! ### Changing one entry of an ordered list -/

/-- Replaces the value at `name`, or puts a new entry at its place in the order; `f` sees the
value that was there. -/
def alterEntries (name : String) (f : Option α → α) : List (String × α) → List (String × α)
  | [] => [(name, f none)]
  | (key, value) :: rest =>
    if name < key then (name, f none) :: (key, value) :: rest
    else if name = key then (key, f (some value)) :: rest
    else (key, value) :: alterEntries name f rest

private theorem mem_alterEntries {name : String} {f : Option α → α} {p : String × α} :
    ∀ {l : List (String × α)}, p ∈ alterEntries name f l → p.1 = name ∨ p ∈ l := by
  intro l
  induction l with
  | nil => intro h; simp only [alterEntries, List.mem_singleton] at h; exact .inl (by rw [h])
  | cons e rest ih =>
    obtain ⟨key, value⟩ := e
    intro h
    simp only [alterEntries] at h
    split at h
    · rcases List.mem_cons.mp h with h | h
      · exact .inl (by rw [h])
      · exact .inr h
    · split at h
      · rename_i hk
        rcases List.mem_cons.mp h with h | h
        · exact .inl (by rw [h, hk])
        · exact .inr (List.mem_cons_of_mem _ h)
      · rcases List.mem_cons.mp h with h | h
        · exact .inr (h ▸ List.mem_cons_self)
        · exact (ih h).imp id (List.mem_cons_of_mem _)

private theorem name_lt_of_not {a b : String} (h : ¬ a < b) (h' : ¬ a = b) : b < a := by
  rcases Decidable.em (b < a) with hb | hb
  · exact hb
  · exact absurd (String.le_antisymm (String.not_lt.mp hb) (String.not_lt.mp h)) h'

private theorem pairwise_alterEntries {name : String} {f : Option α → α} :
    ∀ {l : List (String × α)}, l.Pairwise (fun a b ↦ a.1 < b.1) →
      (alterEntries name f l).Pairwise (fun a b ↦ a.1 < b.1) := by
  intro l
  induction l with
  | nil => intro _; exact List.pairwise_singleton _ _
  | cons e rest ih =>
    obtain ⟨key, value⟩ := e
    intro h
    have hrest := List.pairwise_cons.mp h
    simp only [alterEntries]
    split
    · rename_i hlt
      refine List.pairwise_cons.mpr ⟨fun p hp ↦ ?_, h⟩
      rcases List.mem_cons.mp hp with hp | hp
      · subst hp; exact hlt
      · exact String.lt_trans hlt (hrest.1 p hp)
    · split
      · exact List.pairwise_cons.mpr ⟨hrest.1, hrest.2⟩
      · rename_i hlt hne
        refine List.pairwise_cons.mpr ⟨fun p hp ↦ ?_, ih hrest.2⟩
        rcases mem_alterEntries hp with hp | hp
        · rw [hp]; exact name_lt_of_not hlt hne
        · exact hrest.1 p hp

/-! ### Operations -/

/-- The table without entries. -/
def empty : Table α := ⟨[], .nil⟩

instance : EmptyCollection (Table α) := ⟨empty⟩

instance : Inhabited (Table α) := ⟨empty⟩

/-- The value at a name. -/
def get? (t : Table α) (name : String) : Option α :=
  (t.entries.find? (fun e ↦ e.1 = name)).map Prod.snd

/-- The value at a name, or `default` where the table has none. -/
def getD (t : Table α) (name : String) (default : α) : α := (t.get? name).getD default

/-- Whether the table has a value at a name. -/
def contains (t : Table α) (name : String) : Bool := (t.get? name).isSome

instance : Membership String (Table α) := ⟨fun t name ↦ t.contains name = true⟩

instance (t : Table α) (name : String) : Decidable (name ∈ t) :=
  inferInstanceAs (Decidable (t.contains name = true))

/-- The names of the table, in increasing order. -/
def keys (t : Table α) : List String := t.entries.map Prod.fst

/-- The values of the table, in the order of their names. -/
def values (t : Table α) : List α := t.entries.map Prod.snd

/-- The number of entries. -/
def size (t : Table α) : Nat := t.entries.length

/-- Whether there is no entry. -/
def isEmpty (t : Table α) : Bool := t.entries.isEmpty

/-- Sets the value at a name to `f` of the value that was there. -/
def alter (t : Table α) (name : String) (f : Option α → α) : Table α :=
  ⟨alterEntries name f t.entries, pairwise_alterEntries t.ordered⟩

/-- Sets the value at a name. -/
def insert (t : Table α) (name : String) (value : α) : Table α := t.alter name fun _ ↦ value

/-- Keeps the entries that pass a test. -/
def filter (t : Table α) (p : String → α → Bool) : Table α :=
  ⟨t.entries.filter (fun e ↦ p e.1 e.2), t.ordered.filter _⟩

/-- Applies a function to every value. -/
def map (t : Table α) (f : String → α → β) : Table β :=
  ⟨t.entries.map (fun e ↦ (e.1, f e.1 e.2)), List.pairwise_map.mpr t.ordered⟩

/-- Runs through the entries in name order. -/
def fold (t : Table α) (f : β → String → α → β) (start : β) : β :=
  t.entries.foldl (fun b e ↦ f b e.1 e.2) start

/-- The table of a list of entries; the last entry of a name wins. -/
def ofList (l : List (String × α)) : Table α :=
  l.foldl (fun t e ↦ t.insert e.1 e.2) ∅

/-- The table with one entry. -/
def singleton (name : String) (value : α) : Table α :=
  ⟨[(name, value)], List.pairwise_singleton _ _⟩

/-- Whether two tables have the same names, with values that pass a test. -/
def all₂ (r : α → β → Bool) (s : Table α) (t : Table β) : Bool :=
  s.size = t.size ∧ (s.entries.zip t.entries).all fun e ↦ e.1.1 = e.2.1 ∧ r e.1.2 e.2.2

instance [BEq α] : BEq (Table α) := ⟨all₂ (· == ·)⟩

/-! ### The values determine the table -/

private theorem get?_mk_cons {key name : String} {value : α} {rest : List (String × α)}
    {h : ((key, value) :: rest).Pairwise (fun a b ↦ a.1 < b.1)} :
    (⟨(key, value) :: rest, h⟩ : Table α).get? name =
      if key = name then some value else
        (⟨rest, (List.pairwise_cons.mp h).2⟩ : Table α).get? name := by
  by_cases hk : key = name <;> simp [get?, hk]

private theorem find?_alterEntries {name other : String} {f : Option α → α} :
    ∀ {l : List (String × α)}, l.Pairwise (fun a b ↦ a.1 < b.1) →
      ((alterEntries name f l).find? (fun e ↦ e.1 = other)).map Prod.snd =
        if other = name then some (f ((l.find? (fun e ↦ e.1 = name)).map Prod.snd))
        else (l.find? (fun e ↦ e.1 = other)).map Prod.snd := by
  intro l
  induction l with
  | nil => intro _; by_cases h : other = name <;> simp [alterEntries, h, eq_comm]
  | cons e rest ih =>
    obtain ⟨key, value⟩ := e
    intro h
    have hrest := List.pairwise_cons.mp h
    have hnone : name < key → (rest.find? (fun e ↦ e.1 = name)) = none := by
      intro hlt
      refine List.find?_eq_none.mpr fun p hp hpn ↦ ?_
      have hpn : p.1 = name := by simpa using hpn
      have hlt : name < p.1 := String.lt_trans hlt (hrest.1 p hp)
      exact String.lt_irrefl name (hpn ▸ hlt)
    simp only [alterEntries]
    by_cases hlt : name < key
    · have hne : ¬ key = name := fun hk ↦ String.lt_irrefl name (hk ▸ hlt)
      by_cases ho : other = name
      · simp [hlt, ho, hne, hnone hlt]
      · have : ¬ name = other := fun h ↦ ho h.symm
        simp [hlt, ho, this, List.find?_cons]
    · by_cases hk : name = key
      · subst hk
        by_cases ho : other = name
        · subst ho; simp
        · have : ¬ name = other := fun h ↦ ho h.symm
          simp [ho, this]
      · have hk' : ¬ key = name := fun h ↦ hk h.symm
        by_cases ho : key = other
        · subst ho
          simp [hlt, hk, hk']
        · have := ih hrest.2
          simp [hlt, hk, ho, hk', this]

@[simp] theorem get?_empty (name : String) : (∅ : Table α).get? name = none := rfl

theorem get?_alter (t : Table α) (name other : String) (f : Option α → α) :
    (t.alter name f).get? other = if other = name then some (f (t.get? name)) else t.get? other :=
  find?_alterEntries t.ordered

@[simp] theorem get?_alter_self (t : Table α) (name : String) (f : Option α → α) :
    (t.alter name f).get? name = some (f (t.get? name)) := by rw [get?_alter, if_pos rfl]

theorem get?_insert (t : Table α) (name other : String) (value : α) :
    (t.insert name value).get? other = if other = name then some value else t.get? other :=
  get?_alter ..

@[simp] theorem get?_insert_self (t : Table α) (name : String) (value : α) :
    (t.insert name value).get? name = some value := by rw [get?_insert, if_pos rfl]

theorem mem_entries_iff {t : Table α} {name : String} {value : α} :
    (name, value) ∈ t.entries ↔ t.get? name = some value := by
  obtain ⟨entries, ordered⟩ := t
  induction entries with
  | nil => simp [get?]
  | cons e rest ih =>
    obtain ⟨key, first⟩ := e
    have hrest := List.pairwise_cons.mp ordered
    rw [get?_mk_cons]
    by_cases hk : key = name
    · subst hk
      have : (key, value) ∉ rest := fun h ↦ String.lt_irrefl key (hrest.1 _ h)
      simp [this, eq_comm]
    · have hk' : ¬ name = key := fun h ↦ hk h.symm
      simpa [hk, hk'] using ih hrest.2

theorem mem_keys_iff {t : Table α} {name : String} : name ∈ t.keys ↔ name ∈ t := by
  show name ∈ t.entries.map Prod.fst ↔ (t.get? name).isSome = true
  rw [List.mem_map]
  constructor
  · rintro ⟨⟨key, value⟩, h, rfl⟩
    rw [mem_entries_iff.mp h]; rfl
  · intro h
    obtain ⟨value, h⟩ := Option.isSome_iff_exists.mp h
    exact ⟨(name, value), mem_entries_iff.mpr h, rfl⟩

theorem mem_iff_get? {t : Table α} {name : String} : name ∈ t ↔ ∃ value, t.get? name = some value :=
  Option.isSome_iff_exists

theorem not_mem_iff_get? {t : Table α} {name : String} : name ∉ t ↔ t.get? name = none := by
  show ¬ (t.get? name).isSome = true ↔ _
  cases t.get? name <;> simp

theorem mem_insert {t : Table α} {name other : String} {value : α} :
    other ∈ t.insert name value ↔ other = name ∨ other ∈ t := by
  rw [mem_iff_get?, get?_insert]
  by_cases h : other = name
  · simp [h]
  · simp [h, mem_iff_get?]

theorem mem_alter {t : Table α} {name other : String} {f : Option α → α} :
    other ∈ t.alter name f ↔ other = name ∨ other ∈ t := by
  rw [mem_iff_get?, get?_alter]
  by_cases h : other = name
  · simp [h]
  · simp [h, mem_iff_get?]

private theorem head_eq {a b : String × α} {l m : List (String × α)}
    {hl : (a :: l).Pairwise (fun a b ↦ a.1 < b.1)} {hm : (b :: m).Pairwise (fun a b ↦ a.1 < b.1)}
    (h : ∀ name, (⟨a :: l, hl⟩ : Table α).get? name = (⟨b :: m, hm⟩ : Table α).get? name) :
    a = b := by
  have ha : (a.1, a.2) ∈ b :: m :=
    mem_entries_iff.mpr ((h a.1).symm.trans (mem_entries_iff.mp List.mem_cons_self))
  have hb : (b.1, b.2) ∈ a :: l :=
    mem_entries_iff.mpr ((h b.1).trans (mem_entries_iff.mp List.mem_cons_self))
  rcases List.mem_cons.mp ha with ha | ha
  · exact ha
  · rcases List.mem_cons.mp hb with hb | hb
    · exact hb.symm
    · exact absurd ((List.pairwise_cons.mp hm).1 _ ha)
        (String.lt_asymm ((List.pairwise_cons.mp hl).1 _ hb))

private theorem get?_eq_none_of_lt {key name : String} {rest : List (String × α)}
    {h : rest.Pairwise (fun a b ↦ a.1 < b.1)} (hlt : ∀ p ∈ rest, key < p.1) (hn : name = key) :
    (⟨rest, h⟩ : Table α).get? name = none := by
  subst hn
  cases hg : (⟨rest, h⟩ : Table α).get? name with
  | none => rfl
  | some value => exact absurd (hlt _ (mem_entries_iff.mpr hg)) (String.lt_irrefl _)

/-- A table is determined by its values. -/
theorem ext_get? {s t : Table α} (h : ∀ name, s.get? name = t.get? name) : s = t := by
  obtain ⟨l, hl⟩ := s
  obtain ⟨m, hm⟩ := t
  suffices l = m by subst this; rfl
  induction l generalizing m with
  | nil =>
    cases m with
    | nil => rfl
    | cons b m =>
      have := h b.1
      rw [(mem_entries_iff (t := ⟨b :: m, hm⟩)).mp List.mem_cons_self] at this
      exact absurd this (by simp [get?])
  | cons a l ih =>
    cases m with
    | nil =>
      have := h a.1
      rw [(mem_entries_iff (t := ⟨a :: l, hl⟩)).mp List.mem_cons_self] at this
      exact absurd this (by simp [get?])
    | cons b m =>
      have hab := head_eq h
      subst hab
      obtain ⟨key, value⟩ := a
      refine congrArg _ (ih (List.pairwise_cons.mp hl).2 m (List.pairwise_cons.mp hm).2
        fun name ↦ ?_)
      by_cases hn : name = key
      · rw [get?_eq_none_of_lt (List.pairwise_cons.mp hl).1 hn,
          get?_eq_none_of_lt (List.pairwise_cons.mp hm).1 hn]
      · have hn' : ¬ key = name := fun h ↦ hn h.symm
        simpa only [get?_mk_cons, if_neg hn'] using h name

theorem get?_filter (t : Table α) (p : String → α → Bool) (name : String) :
    (t.filter p).get? name = (t.get? name).filter (p name) := by
  cases h : (t.filter p).get? name with
  | some value =>
    have hm := mem_entries_iff.mpr h
    have hm := List.mem_filter.mp hm
    rw [mem_entries_iff.mp hm.1]
    simp [Option.filter, hm.2]
  | none =>
    cases hg : t.get? name with
    | none => rfl
    | some value =>
      by_cases hp : p name value = true
      · have : (name, value) ∈ (t.filter p).entries :=
          List.mem_filter.mpr ⟨mem_entries_iff.mpr hg, hp⟩
        rw [mem_entries_iff.mp this] at h
        exact absurd h (by simp)
      · simp [Option.filter, hp]

theorem get?_map (t : Table α) (f : String → α → β) (name : String) :
    (t.map f).get? name = (t.get? name).map (f name) := by
  cases h : t.get? name with
  | some value =>
    refine mem_entries_iff.mp (List.mem_map.mpr ⟨(name, value), mem_entries_iff.mpr h, rfl⟩)
  | none =>
    cases hg : (t.map f).get? name with
    | none => rfl
    | some value =>
      obtain ⟨⟨key, v⟩, hm, he⟩ := List.mem_map.mp (mem_entries_iff.mpr hg)
      have hk : key = name := congrArg Prod.fst he
      subst hk
      rw [mem_entries_iff.mp hm] at h
      exact absurd h (by simp)

theorem keys_map (t : Table α) (f : String → α → β) : (t.map f).keys = t.keys :=
  List.map_map

/-- Two tables with the same names list them alike, whatever their values. -/
theorem keys_eq_of_mem_iff {s : Table α} {t : Table β} (h : ∀ name, name ∈ s ↔ name ∈ t) :
    s.keys = t.keys := by
  have hnames : s.map (fun _ _ ↦ ()) = t.map fun _ _ ↦ () := by
    refine ext_get? fun name ↦ ?_
    rw [get?_map, get?_map]
    by_cases hs : name ∈ s
    · obtain ⟨_, hvalue⟩ := mem_iff_get?.mp hs
      obtain ⟨_, hvalue'⟩ := mem_iff_get?.mp ((h name).mp hs)
      rw [hvalue, hvalue', Option.map_some, Option.map_some]
    · rw [not_mem_iff_get?.mp hs, not_mem_iff_get?.mp (mt (h name).mpr hs), Option.map_none,
        Option.map_none]
  rw [← keys_map s, hnames, keys_map]

theorem nodup_keys (t : Table α) : t.keys.Nodup := by
  refine List.pairwise_map.mpr (t.ordered.imp fun {a b} h he ↦ ?_)
  exact String.lt_irrefl b.1 (he ▸ h)

theorem getD_eq (t : Table α) (name : String) (default : α) :
    t.getD name default = (t.get? name).getD default := rfl

theorem get?_singleton (name other : String) (value : α) :
    (singleton name value).get? other = if other = name then some value else none := by
  by_cases h : other = name
  · simp [singleton, get?, h]
  · simp [singleton, get?, h, Ne.symm h]

theorem not_mem_empty (name : String) : name ∉ (∅ : Table α) :=
  not_mem_iff_get?.mpr (get?_empty name)

/-- The names that a succession of steps adds to a table, when each step adds names to it. -/
theorem mem_foldl {f : Table α → β → Table α} {name : String} {adds : β → Prop}
    (h : ∀ t b, name ∈ f t b ↔ name ∈ t ∨ adds b) (l : List β) (t : Table α) :
    name ∈ l.foldl f t ↔ name ∈ t ∨ ∃ b ∈ l, adds b := by
  induction l generalizing t with
  | nil => simp
  | cons b l ih =>
    rw [List.foldl_cons, ih, h]
    simp [or_assoc]

/-- A search through the entries fails when it fails at each of them. -/
theorem findSome?_entries_eq_none {t : Table α} {f : String × α → Option β} :
    t.entries.findSome? f = none ↔
      ∀ name value, t.get? name = some value → f (name, value) = none := by
  rw [List.findSome?_eq_none_iff]
  exact ⟨fun h name value hv ↦ h _ (mem_entries_iff.mpr hv),
    fun h e he ↦ h e.1 e.2 (mem_entries_iff.mp he)⟩

/-- A search through the entries ends at the first name at which it finds something. -/
theorem exists_of_findSome?_entries {t : Table α} {f : String × α → Option β} {b : β}
    (h : t.entries.findSome? f = some b) :
    ∃ name value, t.get? name = some value ∧ f (name, value) = some b ∧
      ∀ earlier < name, ∀ v, t.get? earlier = some v → f (earlier, v) = none := by
  obtain ⟨before, ⟨name, value⟩, rest, hentries, hfound, hnone⟩ := List.findSome?_eq_some_iff.mp h
  have hordered := t.ordered
  rw [hentries] at hordered
  have hrest := List.pairwise_cons.mp (List.pairwise_append.mp hordered).2.1
  refine ⟨name, value, mem_entries_iff.mp (hentries ▸ List.mem_append_right _ List.mem_cons_self),
    hfound, fun earlier hlt v hv ↦ ?_⟩
  have hmem : (earlier, v) ∈ before ++ (name, value) :: rest := hentries ▸ mem_entries_iff.mpr hv
  rcases List.mem_append.mp hmem with hmem | hmem
  · exact hnone _ hmem
  · rcases List.mem_cons.mp hmem with heq | hmem
    · cases heq
      exact absurd hlt (String.lt_irrefl _)
    · exact absurd hlt (String.lt_asymm (hrest.1 _ hmem))

/-- What a traversal does to one part of a state, when only the entry of one name touches that
part. -/
theorem view_fold {σ : Type v} {γ : Type w} (view : σ → γ) {f : σ → String → α → σ}
    {g : α → γ → γ} {name : String}
    (hother : ∀ s key value, key ≠ name → view (f s key value) = view s)
    (hself : ∀ s value, view (f s name value) = g value (view s)) (t : Table α) (s : σ) :
    view (t.fold f s) = match t.get? name with
      | none => view s
      | some value => g value (view s) := by
  obtain ⟨entries, ordered⟩ := t
  induction entries generalizing s with
  | nil => rfl
  | cons e rest ih =>
    obtain ⟨key, value⟩ := e
    have hrest := List.pairwise_cons.mp ordered
    have hfold : (⟨(key, value) :: rest, ordered⟩ : Table α).fold f s =
        (⟨rest, hrest.2⟩ : Table α).fold f (f s key value) := rfl
    rw [hfold, ih _ hrest.2, get?_mk_cons]
    by_cases hk : key = name
    · subst hk
      rw [get?_eq_none_of_lt hrest.1 rfl, if_pos rfl]
      exact hself s value
    · rw [if_neg hk, hother s key value hk]

/-- A table is what its entries build. -/
theorem ofList_entries (t : Table α) : ofList t.entries = t := by
  refine ext_get? fun name ↦ ?_
  have h := view_fold (fun s : Table α ↦ s.get? name) (f := insert) (g := fun value _ ↦ some value)
    (fun s key value hk ↦ by rw [get?_insert, if_neg (Ne.symm hk)])
    (fun s value ↦ get?_insert_self ..) t ∅
  refine Eq.trans h ?_
  cases t.get? name <;> rfl

end Table

/-- A finite set of names. -/
abbrev NameSet := Table Unit

namespace NameSet

/-- The set with one more name. -/
def add (s : NameSet) (name : String) : NameSet := s.insert name ()

/-- The names of a list. -/
def ofNames (names : List String) : NameSet := names.foldl add ∅

/-- The names of either set. -/
def union (s t : NameSet) : NameSet := t.keys.foldl add s

@[simp] theorem mem_add {s : NameSet} {name other : String} :
    other ∈ s.add name ↔ other = name ∨ other ∈ s := Table.mem_insert

theorem mem_foldl_add {names : List String} {s : NameSet} {name : String} :
    name ∈ names.foldl add s ↔ name ∈ names ∨ name ∈ s := by
  refine (Table.mem_foldl (f := add) (fun _ _ ↦ mem_add.trans or_comm) names s).trans ?_
  rw [or_comm, exists_eq_right']

@[simp] theorem mem_union {s t : NameSet} {name : String} :
    name ∈ s.union t ↔ name ∈ s ∨ name ∈ t := by
  rw [union, mem_foldl_add, Table.mem_keys_iff, or_comm]

end NameSet

end QueueScaler
