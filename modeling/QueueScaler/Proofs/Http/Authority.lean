import QueueScaler.Http.Exchange
import QueueScaler.Proofs.Text.Digits
import QueueScaler.Proofs.Text.Span
/-!
# Users, hosts and ports

An authority is a user, if it names one, up to the last `@`; a host, which is a text in brackets or
goes up to a colon; and what is written behind the host, where the port follows the last colon. A
colon of the user or of a host in brackets is never taken for that of the port, since what follows
it up to the end is no number.

## Main definitions

* `Http.Authority.Parts`: the parts of an authority.
* `Http.Authority.PortOf`: the port that is taken from what is written behind a host.

## Main results

* `Http.Authority.exists_parts`: every authority has such parts.
* `Http.Authority.Parts.host_eq`, `Http.Authority.Parts.port?_eq`: the host and the port that are
  read off it.
* `Http.Authority.portOf_iff`: which port that is.
-/

namespace QueueScaler.Http

/-! ### What a scan sees -/

namespace AuthorityScan

variable {s s' : AuthorityScan} {c : Char} {cs : List Char}

theorem inAuthority_of_step (h : s.step c = some s') : Uri.inAuthority c = true := by
  by_contra hc
  have hend : c = '/' ∨ c = '?' ∨ c = '#' := by
    simpa [Uri.inAuthority, Classical.or_iff_not_imp_left] using hc
  rcases hend with rfl | rfl | rfl <;> exact absurd h (by simp [step, isAuthorityChar])

/-- A step takes notice of the brackets, and none is opened twice or closed before it is opened. -/
theorem brackets_of_step (h : s.step c = some s') :
    (s'.opened = true ↔ s.opened = true ∨ c = '[') ∧
      (s'.closed = true ↔ s.closed = true ∨ c = ']') ∧
      (c = '[' → s.opened = false) ∧ (c = ']' → s.opened = true) := by
  rw [step] at h
  split_ifs at h with hcolon hlimit hopen hagain hclose hstray hat hpercent hchar
  all_goals obtain rfl := Option.some.inj h
  all_goals grind

theorem inAuthority_of_foldlM (h : cs.foldlM step s = some s') :
    ∀ c ∈ cs, Uri.inAuthority c = true := by
  induction cs generalizing s with
  | nil => exact fun c hc ↦ absurd hc List.not_mem_nil
  | cons d cs ih =>
    rw [List.foldlM_cons] at h
    obtain ⟨t, ht, hcs⟩ := Option.bind_eq_some_iff.mp h
    exact List.forall_mem_cons.mpr ⟨inAuthority_of_step ht, ih hcs⟩

theorem brackets_of_foldlM (h : cs.foldlM step s = some s') :
    (s'.opened = true ↔ s.opened = true ∨ '[' ∈ cs) ∧
      (s'.closed = true ↔ s.closed = true ∨ ']' ∈ cs) := by
  induction cs generalizing s with
  | nil =>
    obtain rfl := Option.some.inj h
    simp
  | cons c cs ih =>
    rw [List.foldlM_cons] at h
    obtain ⟨t, hstep, hrest⟩ := Option.bind_eq_some_iff.mp h
    obtain ⟨hopened, hclosed⟩ := ih hrest
    obtain ⟨hopen, hclose, -, -⟩ := brackets_of_step hstep
    rw [hopened, hclosed, hopen, hclose, List.mem_cons, List.mem_cons, eq_comm (a := c),
      eq_comm (a := c), or_assoc, or_assoc]
    exact ⟨Iff.rfl, Iff.rfl⟩

/-- A bracket that has been closed has been opened. -/
theorem opened_of_foldlM (h : cs.foldlM step s = some s')
    (hs : s.closed = true → s.opened = true) : s'.closed = true → s'.opened = true := by
  induction cs generalizing s with
  | nil =>
    obtain rfl := Option.some.inj h
    exact hs
  | cons c cs ih =>
    rw [List.foldlM_cons] at h
    obtain ⟨t, hstep, hrest⟩ := Option.bind_eq_some_iff.mp h
    obtain ⟨hopened, hclosed, -, hopen⟩ := brackets_of_step hstep
    refine ih hrest fun ht ↦ hopened.mpr (.inl ?_)
    exact (hclosed.mp ht).elim hs hopen

end AuthorityScan

namespace Authority

variable {cs user host rest : List Char} {c : Char}

/-- The scan of an authority comes to its end, and may end there. -/
theorem exists_scan (h : isValid cs = true) :
    ∃ s, cs.foldlM AuthorityScan.step {} = some s ∧ s.complete = true := by
  unfold isValid at h
  split at h
  · cases h
  · rename_i s hscan
    exact ⟨s, hscan, (Bool.and_eq_true_iff.mp h).1⟩

/-- **An authority ends before the path,** the query and the fragment. -/
theorem inAuthority_of_isValid (h : isValid cs = true) : ∀ c ∈ cs, Uri.inAuthority c = true := by
  obtain ⟨_, hscan, -⟩ := exists_scan h
  exact AuthorityScan.inAuthority_of_foldlM hscan

/-- **A bracket that is opened is closed** behind that place. -/
theorem mem_of_isValid {before behind : List Char} (h : isValid (before ++ '[' :: behind) = true) :
    ']' ∈ behind := by
  obtain ⟨s, hscan, hcomplete⟩ := exists_scan h
  rw [List.foldlM_append] at hscan
  obtain ⟨t, hbefore, hscan⟩ := Option.bind_eq_some_iff.mp hscan
  rw [List.foldlM_cons] at hscan
  obtain ⟨u, hstep, hbehind⟩ := Option.bind_eq_some_iff.mp hscan
  obtain ⟨hopened, hclosed, hfirst, -⟩ := AuthorityScan.brackets_of_step hstep
  obtain ⟨hopened', hclosed'⟩ := AuthorityScan.brackets_of_foldlM hbehind
  -- No bracket is closed before one is opened, so none has been closed before this one.
  have hnew : t.closed ≠ true := fun ht ↦ by
    have hold := AuthorityScan.opened_of_foldlM hbefore (fun h ↦ absurd h Bool.false_ne_true) ht
    exact Bool.false_ne_true ((hfirst rfl).symm.trans hold)
  have hend : s.closed = true := by
    rw [AuthorityScan.complete, Bool.and_eq_true, Bool.and_eq_true, beq_iff_eq] at hcomplete
    exact hcomplete.1.1 ▸ hopened'.mpr (.inl (hopened.mpr (.inr rfl)))
  refine (hclosed'.mp hend).resolve_left fun hu ↦ ?_
  exact (hclosed.mp hu).elim hnew (by decide)

/-! ### The last occurrence of a character -/

theorem afterLast?_of_notMem (h : c ∉ cs) : afterLast? c cs = none := by
  induction cs with
  | nil => rfl
  | cons d cs ih =>
    obtain ⟨hd, hcs⟩ := not_or.mp (mt List.mem_cons.mpr h)
    rw [afterLast?, ih hcs]
    exact if_neg (Ne.symm hd)

theorem afterLast?_append {s t : List Char} (h : c ∉ t) : afterLast? c (s ++ c :: t) = some t := by
  induction s with
  | nil =>
    rw [List.nil_append, afterLast?, afterLast?_of_notMem h]
    exact if_pos rfl
  | cons d s ih => rw [List.cons_append, afterLast?, ih]

/-- A character of a text has a last occurrence. -/
theorem exists_last_of_mem (h : c ∈ cs) : ∃ s t, cs = s ++ c :: t ∧ c ∉ t := by
  obtain ⟨t, s, heq, hnew⟩ := List.eq_append_cons_of_mem (List.mem_reverse.mpr h)
  refine ⟨s.reverse, t.reverse, ?_, fun hmem ↦ hnew (List.mem_reverse.mp hmem)⟩
  rw [← List.reverse_reverse cs, heq]
  simp

/-- Of two characters, the one without the other behind it stands behind the other. -/
theorem mem_of_append_eq {d : Char} {l r s t : List Char} (h : l ++ d :: r = s ++ c :: t)
    (hc : c ∉ d :: r) : d ∈ t := by
  rcases List.append_eq_append_iff.mp h with ⟨m, -, hm⟩ | ⟨m, -, hm⟩
  · exact absurd (hm ▸ List.mem_append_right m List.mem_cons_self) hc
  · rcases m with _ | ⟨e, m⟩
    · rw [List.nil_append] at hm
      exact absurd (hm ▸ List.mem_cons_self) hc
    · rw [List.cons_append] at hm
      rw [(List.cons.inj hm).2]
      exact List.mem_append_right m List.mem_cons_self

/-! ### The parts of an authority -/

/-- The parts of an authority. -/
structure Parts (cs user host rest : List Char) : Prop where
  /-- How they are put together. -/
  text : cs = user ++ host ++ rest
  /-- A user ends with an at sign, and none is left behind it. -/
  user : user = [] ∨ ∃ name, user = name ++ ['@']
  /-- No at sign is left behind the user. -/
  at_notMem : '@' ∉ host ++ rest
  /-- A host is a text in brackets, or else goes up to a colon. -/
  host : (∃ inner, host = '[' :: inner ++ [']'] ∧ ']' ∉ inner) ∨
    host.head? ≠ some '[' ∧ ':' ∉ host ∧ ∀ c ∈ rest.head?, c = ':'

/-- The port that is taken from what is written behind a host. -/
inductive PortOf : List Char → ℕ → Prop
  /-- No port is written. -/
  | unwritten {rest : List Char} (h : ':' ∉ rest) : PortOf rest defaultPort
  /-- A port is written. -/
  | written {before text : List Char} {port : ℕ} (hlast : ':' ∉ text)
    (hport : Digits.Writes text port) (hlt : port < 65536) : PortOf (before ++ ':' :: text) port
  /-- What is written is no port, and counts for none. -/
  | unreadable {before text : List Char} (hlast : ':' ∉ text)
    (hport : ¬ ∃ port < 65536, Digits.Writes text port) :
    PortOf (before ++ ':' :: text) defaultPort

/-- **Every authority has a user, a host and something behind it.** -/
theorem exists_parts (h : isValid cs = true) : ∃ user host rest, Parts cs user host rest := by
  obtain ⟨user, behind, rfl, huser, hat⟩ : ∃ user behind, cs = user ++ behind ∧
      (user = [] ∨ ∃ name, user = name ++ ['@']) ∧ '@' ∉ behind := by
    by_cases hmem : '@' ∈ cs
    · obtain ⟨name, behind, rfl, hlast⟩ := exists_last_of_mem hmem
      exact ⟨name ++ ['@'], behind, by simp, .inr ⟨name, rfl⟩, hlast⟩
    · exact ⟨[], cs, rfl, .inl rfl, hmem⟩
  by_cases hopen : behind.head? = some '['
  · obtain ⟨inside, rfl⟩ := List.head?_eq_some_iff.mp hopen
    obtain ⟨inner, rest, rfl, hinner⟩ := List.eq_append_cons_of_mem (mem_of_isValid h)
    exact ⟨user, '[' :: inner ++ [']'], rest, by simp, huser, by simpa using hat,
      .inl ⟨inner, rfl, hinner⟩⟩
  · have hbehind := List.takeWhile_append_dropWhile (p := fun c ↦ decide (c ≠ ':')) (l := behind)
    refine ⟨user, _, _, ?_, huser, hbehind.symm ▸ hat, .inr ⟨?_, ?_, ?_⟩⟩
    · rw [List.append_assoc, hbehind]
    · rw [List.head?_takeWhile]
      exact fun heq ↦ hopen (Option.eq_some_of_filter_eq_some heq)
    · exact fun hmem ↦ absurd (List.mem_takeWhile_imp hmem) (by simp)
    · exact fun c hc ↦ by simpa using eq_false_of_mem_head?_dropWhile hc

/-- What stands behind the user. -/
theorem Parts.getD_afterLast? (h : Parts cs user host rest) :
    (afterLast? '@' cs).getD cs = host ++ rest := by
  rcases h.user with rfl | ⟨name, rfl⟩
  · have hcs : cs = host ++ rest := h.text
    rw [hcs, afterLast?_of_notMem h.at_notMem, Option.getD_none]
  · have hcs : cs = name ++ '@' :: (host ++ rest) := by simp [h.text]
    rw [hcs, afterLast?_append h.at_notMem, Option.getD_some]

/-- **The host that is read off an authority** is that of its parts. -/
theorem Parts.host_eq (h : Parts cs user host rest) : Authority.host cs = host := by
  rw [Authority.host, h.getD_afterLast?]
  rcases h.host with ⟨inner, rfl, hinner⟩ | ⟨hopen, hcolon, hrest⟩
  · have hclose : (inner ++ (']' :: rest)).takeWhile (· ≠ ']') = inner := by
      rw [takeWhile_ne_append_of_notMem hinner, List.takeWhile_cons_of_neg (by decide),
        List.append_nil]
    rw [List.append_assoc, List.cons_append, List.singleton_append]
    exact congrArg (fun inside ↦ '[' :: inside ++ [']']) hclose
  · have hnamed : (host ++ rest).head? ≠ some '[' := by
      rcases host with _ | ⟨c, host⟩
      · intro hhead
        exact absurd (hrest '[' hhead) (by decide)
      · exact hopen
    split
    · rename_i heq
      exact absurd (by rw [heq, List.head?_cons]) hnamed
    · refine takeWhile_append (fun c hc ↦ decide_eq_true ?_) fun c hc ↦ ?_
      · exact fun heq ↦ hcolon (heq ▸ hc)
      · rw [hrest c hc]
        decide

/-- A colon is not that of the port if something that is no number follows. -/
theorem port?_eq_none {d : Char} {l r : List Char} (hd : d.isDigit = false ∧ d ≠ '+')
    (hlast : ':' ∉ d :: r) : port? (l ++ d :: r) = none := by
  by_cases hmem : ':' ∈ l ++ d :: r
  · obtain ⟨s, t, heq, ht⟩ := exists_last_of_mem hmem
    rw [port?, heq, afterLast?_append ht, Option.bind_some]
    exact Digits.count?_eq_none_of_mem (mem_of_append_eq heq hlast) hd.1 hd.2
  · rw [port?, afterLast?_of_notMem hmem, Option.bind_none]

/-- **What is written behind a host decides on the port.** -/
theorem Parts.port?_eq (h : Parts cs user host rest) : port? cs = port? rest := by
  by_cases hcolon : ':' ∈ rest
  · obtain ⟨before, text, rfl, hlast⟩ := exists_last_of_mem hcolon
    have hcs : cs = (user ++ host ++ before) ++ ':' :: text := by rw [h.text, ← List.append_assoc]
    rw [hcs, port?, port?, afterLast?_append hlast, afterLast?_append hlast]
  · have hrest : port? rest = none := by rw [port?, afterLast?_of_notMem hcolon, Option.bind_none]
    rw [hrest]
    -- A colon before that is followed by the bracket or the at sign, and these are in no number.
    rcases h.host with ⟨inner, rfl, -⟩ | ⟨-, hhost, -⟩
    · have hcs : cs = (user ++ '[' :: inner) ++ ']' :: rest := by simp [h.text]
      rw [hcs]
      exact port?_eq_none (by decide) (by simpa using hcolon)
    · rcases h.user with rfl | ⟨name, rfl⟩
      · rw [h.text, port?, afterLast?_of_notMem (by simp [hhost, hcolon]), Option.bind_none]
      · have hcs : cs = name ++ '@' :: (host ++ rest) := by simp [h.text]
        rw [hcs]
        exact port?_eq_none (by decide) (by simp [hhost, hcolon])

/-- **The port that is taken** is the number behind the last colon, if there is a colon and what
follows is a port; else it is the default. -/
theorem portOf_iff {port : ℕ} : PortOf rest port ↔ (port? rest).getD defaultPort = port := by
  constructor
  · intro h
    cases h with
    | unwritten h => rw [port?, afterLast?_of_notMem h, Option.bind_none, Option.getD_none]
    | written hlast hport hlt =>
      rw [port?, afterLast?_append hlast, Option.bind_some,
        Digits.count?_eq_some_iff.mpr ⟨hport, hlt⟩, Option.getD_some]
    | unreadable hlast hport =>
      have hnone : Digits.count? 65536 _ = none :=
        Option.eq_none_iff_forall_not_mem.mpr fun port h ↦
          hport ⟨port, (Digits.count?_eq_some_iff.mp h).symm⟩
      rw [port?, afterLast?_append hlast, Option.bind_some, hnone, Option.getD_none]
  · rintro rfl
    by_cases hcolon : ':' ∈ rest
    · obtain ⟨before, text, rfl, hlast⟩ := exists_last_of_mem hcolon
      rw [port?, afterLast?_append hlast, Option.bind_some]
      rcases hcount : Digits.count? 65536 text with _ | port
      · refine .unreadable hlast fun ⟨port, hlt, hwrites⟩ ↦ ?_
        rw [Digits.count?_eq_some_iff.mpr ⟨hwrites, hlt⟩] at hcount
        cases hcount
      · obtain ⟨hwrites, hlt⟩ := Digits.count?_eq_some_iff.mp hcount
        exact .written hlast hwrites hlt
    · rw [port?, afterLast?_of_notMem hcolon, Option.bind_none, Option.getD_none]
      exact .unwritten hcolon

end Authority

end QueueScaler.Http
