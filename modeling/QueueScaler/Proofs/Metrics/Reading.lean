import Mathlib.Data.List.Basic
import QueueScaler.Metrics.Exposition
import QueueScaler.Proofs.Text.Span
import QueueScaler.Text.Scanner
/-!
# Reading an exposition back

A reader of the exposition format knows nothing about who wrote the text. It takes lines to end at a
newline and nowhere else, passes over blank ones, and finds in each other line a comment or a
sample: the name of a metric, labels with their values in quotes, and a whole number. Spaces and
tabs may stand between the parts. What the exposition of some gauges says to it is the two comments
and these gauges, whatever their queues are called.

## Main definitions

* `Exposition.Line`: what a line says.
* `Exposition.quoted?`: reads a label value up to the quote that ends it.
* `Exposition.read?`: what the lines of a text say.
* `Exposition.said`: what the line of a sample is to say.

## Main results

* `Exposition.quoted?_escapeLabel`: a label value reads back from between its quotes.
* `Exposition.lines?_flatMap`: a text of lines without newlines in them is read as those lines.
* `Exposition.sample?_sampleText`: the line of a sample says that sample.
* `Exposition.read?_render_exact`: what is rendered reads back, and so tells apart all it shows.
-/

namespace QueueScaler.Exposition

open Scanner (literal? separated separated₀)

/-! ### The reader -/

/-- What a line says. -/
inductive Line where
  /-- A comment, with the sign in front of it. -/
  | comment (text : String)
  /-- The value of a metric under some labels. -/
  | sample (metric : String) (labels : List (String × String)) (value : Nat)
  deriving DecidableEq

/-- The lines of a text, of which each ends in a newline. -/
def lines? : List Char → Option (List (List Char))
  | [] => some []
  | c :: rest =>
    if c = '\n' then (lines? rest).map ([] :: ·)
    else
      match lines? rest with
      | some (line :: lines) => some ((c :: line) :: lines)
      | _ => none

/-- Whether a character may stand between two parts of a line. -/
def isGap (c : Char) : Bool := c = ' ' || c = '\t'

/-- Drops what stands in front of the next part of a line. -/
def skipGap (cs : List Char) : List Char := cs.dropWhile isGap

/-- Whether a character may stand in the name of a label. -/
def isNameChar (c : Char) : Bool := c.isAlphanum || c = '_'

/-- Whether a character may stand in the name of a metric. -/
def isMetricChar (c : Char) : Bool := isNameChar c || c = ':'

/-- A name of some characters, which does not begin with a digit. -/
def name? (allowed : Char → Bool) : Scanner Char String := fun cs ↦
  let (name, rest) := cs.span allowed
  if name.head?.all Char.isDigit then none else some (String.ofList name, rest)

/-- A whole number. -/
def number? : Scanner Char Nat := fun cs ↦
  let (digits, rest) := cs.span Char.isDigit
  if digits = [] then none else some (Nat.ofDigitChars 10 digits 0, rest)

/-- The character that is meant by one behind a backslash. -/
def unescape? (c : Char) : Option Char :=
  if c = '\\' then some '\\'
  else if c = '"' then some '"'
  else if c = 'n' then some '\n'
  else none

/-- A label value up to the quote that ends it. -/
def quoted? : Scanner Char (List Char)
  | [] => none
  | '"' :: rest => some ([], rest)
  | ['\\'] => none
  | '\\' :: c :: rest =>
    match unescape? c, quoted? rest with
    | some c, some (cs, rest) => some (c :: cs, rest)
    | _, _ => none
  | c :: rest => (quoted? rest).map fun (cs, rest) ↦ (c :: cs, rest)

/-- A label and its value. -/
def label? : Scanner Char (String × String) := fun cs ↦ do
  let (name, rest) ← name? isNameChar cs
  let rest ← literal? ['='] (skipGap rest)
  let rest ← literal? ['"'] (skipGap rest)
  let (value, rest) ← quoted? rest
  some ((name, String.ofList value), skipGap rest)

/-- What stands between two labels. -/
def comma? (cs : List Char) : Option (List Char) := (literal? [','] cs).map skipGap

/-- The labels of a sample, if there are any. A comma may stand behind the last. -/
def labels? : Scanner Char (List (String × String))
  | '\x7b' :: rest => do
    let (labels, rest) := separated₀ label? comma? (skipGap rest)
    let rest ← literal? ['\x7d'] ((comma? rest).getD rest)
    some (labels, rest)
  | cs => some ([], cs)

/-- A sample that fills a line. -/
def sample? (cs : List Char) : Option Line := do
  let (metric, rest) ← name? isMetricChar cs
  let (labels, rest) ← labels? (skipGap rest)
  let (value, rest) ← number? (skipGap rest)
  if skipGap rest = [] then some (.sample metric labels value) else none

/-- What a line says that is not blank. -/
def line? (cs : List Char) : Option Line :=
  let text := skipGap cs
  if text.head? = some '#' then some (.comment (String.ofList text)) else sample? text

/-- What the lines of a text say. -/
def read? (s : String) : Option (List Line) := do
  let lines ← lines? s.toList
  (lines.filter fun line ↦ skipGap line ≠ []).mapM line?

/-! ### Lines -/

theorem lines?_append {line : List Char} (h : '\n' ∉ line) (rest : List Char) :
    lines? (line ++ '\n' :: rest) = (lines? rest).map (line :: ·) := by
  induction line with
  | nil => simp [lines?]
  | cons c line ih =>
    obtain ⟨hc, hline⟩ := not_or.mp (mt List.mem_cons.mpr h)
    rw [List.cons_append, lines?, if_neg (Ne.symm hc), ih hline]
    cases lines? rest <;> rfl

/-- A text of lines without newlines in them is read as those lines. -/
theorem lines?_flatMap {lines : List (List Char)} (h : ∀ line ∈ lines, '\n' ∉ line) :
    lines? (lines.flatMap (· ++ ['\n'])) = some lines := by
  induction lines with
  | nil => rfl
  | cons line lines ih =>
    obtain ⟨hline, hlines⟩ := List.forall_mem_cons.mp h
    rw [List.flatMap_cons, List.append_assoc, List.singleton_append, lines?_append hline, ih hlines,
      Option.map_some]

theorem count_flatMap {lines : List (List Char)} (h : ∀ line ∈ lines, '\n' ∉ line) :
    (lines.flatMap (· ++ ['\n'])).count '\n' = lines.length := by
  induction lines with
  | nil => rfl
  | cons line lines ih =>
    obtain ⟨hline, hlines⟩ := List.forall_mem_cons.mp h
    rw [List.flatMap_cons, List.count_append, List.count_append, List.count_eq_zero.mpr hline,
      ih hlines, List.length_cons]
    simp [Nat.add_comm]

/-! ### Label values -/

/-- A character of a label value as it stands between the quotes. -/
def escapeChar (c : Char) : List Char :=
  if c = '\\' then ['\\', '\\']
  else if c = '"' then ['\\', '"']
  else if c = '\n' then ['\\', 'n']
  else [c]

/-- The three replacements treat each character on its own: none of them meets what another one has
written, as the backslashes are doubled first. -/
theorem escapeLabel_eq_flatMap (cs : List Char) : escapeLabel cs = cs.flatMap escapeChar := by
  rw [escapeLabel, replaceChar, replaceChar, replaceChar, List.flatMap_assoc, List.flatMap_assoc]
  refine List.flatMap_congr fun c _ ↦ ?_
  rw [escapeChar]
  split_ifs with hslash hquote hnewline
  · subst hslash; rfl
  · subst hquote; rfl
  · subst hnewline; rfl
  · simp [hquote, hnewline]

theorem newline_notMem_escapeLabel (cs : List Char) : '\n' ∉ escapeLabel cs := by
  rw [escapeLabel_eq_flatMap, List.mem_flatMap]
  rintro ⟨c, -, hc⟩
  rw [escapeChar] at hc
  split_ifs at hc with _ _ hne
  · simp at hc
  · simp at hc
  · simp at hc
  · exact hne (List.mem_singleton.mp hc).symm

theorem quoted?_backslash {c meant : Char} (h : unescape? c = some meant) (cs : List Char) :
    quoted? ('\\' :: c :: cs) = (quoted? cs).map fun (value, rest) ↦ (meant :: value, rest) := by
  rw [quoted?, h]
  cases quoted? cs <;> rfl

theorem quoted?_escapeChar (c : Char) (cs : List Char) :
    quoted? (escapeChar c ++ cs) = (quoted? cs).map fun (value, rest) ↦ (c :: value, rest) := by
  rw [escapeChar]
  split_ifs with hslash hquote hnewline
  · subst hslash
    exact quoted?_backslash rfl cs
  · subst hquote
    exact quoted?_backslash rfl cs
  · subst hnewline
    exact quoted?_backslash rfl cs
  · rw [List.singleton_append, quoted?]
    all_goals simp [hslash, hquote]

/-- **A label value reads back from between its quotes,** whatever its characters are. -/
theorem quoted?_escapeLabel (cs rest : List Char) :
    quoted? (escapeLabel cs ++ '"' :: rest) = some (cs, rest) := by
  rw [escapeLabel_eq_flatMap]
  induction cs with
  | nil => rfl
  | cons c cs ih =>
    rw [List.flatMap_cons, List.append_assoc, quoted?_escapeChar, ih, Option.map_some]

/-! ### Names and numbers -/

section Span

variable {p : Char → Bool} {word rest : List Char}

theorem name?_append (hfirst : word.head?.all Char.isDigit = false)
    (hword : word.all p = true) (hrest : ∀ c ∈ rest.head?, p c = false) :
    name? p (word ++ rest) = some (String.ofList word, rest) := by
  rw [name?, span_append (List.all_eq_true.mp hword) hrest]
  exact if_neg (ne_true_of_eq_false hfirst)

theorem isDigit_of_mem_toString {n : Nat} {c : Char} (h : c ∈ (toString n).toList) :
    c.isDigit = true := by
  rw [Nat.toString_eq_repr, Nat.toList_repr] at h
  exact Nat.isDigit_of_mem_toDigits (by decide) (by decide) h

/-- A number reads back from its digits. -/
theorem number?_append (n : Nat) (hrest : ∀ c ∈ rest.head?, c.isDigit = false) :
    number? ((toString n).toList ++ rest) = some (n, rest) := by
  rw [number?, span_append (fun c ↦ isDigit_of_mem_toString) hrest, Nat.toString_eq_repr,
    Nat.toList_repr]
  exact (if_neg Nat.toDigits_ne_nil).trans (by rw [Nat.ofDigitChars_ten_toDigits])

end Span

/-! ### Labels -/

/-- Whether a text is the name of a label. -/
structure IsLabelName (name : String) : Prop where
  /-- It begins with something other than a digit. -/
  first : name.toList.head?.all Char.isDigit = false
  /-- It has no characters but those of names. -/
  chars : name.toList.all isNameChar = true

/-- A label as it is written. -/
def labelText (name value : String) : List Char :=
  name.toList ++ "=\"".toList ++ escapeLabel value.toList ++ ['"']

section Label

variable {name other : String}

theorem labelText_append (name value : String) (rest : List Char) :
    labelText name value ++ rest =
      name.toList ++ ('=' :: '"' :: (escapeLabel value.toList ++ '"' :: rest)) := by
  simp [labelText]

theorem label?_labelText (hname : IsLabelName name) (value : String) (rest : List Char) :
    label? (labelText name value ++ rest) = some ((name, value), skipGap rest) := by
  rw [labelText_append, label?, name?_append hname.first hname.chars (by simp [isNameChar])]
  simp [skipGap, isGap, literal?, quoted?_escapeLabel]

theorem isGap_of_isNameChar {c : Char} (h : isNameChar c = true) : isGap c = false := by
  rw [isGap, Bool.or_eq_false_iff, decide_eq_false_iff_not, decide_eq_false_iff_not]
  constructor <;> rintro rfl <;> cases h

theorem skipGap_of_head? {cs : List Char} (h : ∀ c ∈ cs.head?, isNameChar c = true) :
    skipGap cs = cs := by
  cases cs with
  | nil => rfl
  | cons c cs => exact List.dropWhile_cons_of_neg (by rw [isGap_of_isNameChar (h c rfl)]; decide)

theorem skipGap_labelText (hname : IsLabelName name) (value : String) (rest : List Char) :
    skipGap (labelText name value ++ rest) = labelText name value ++ rest := by
  refine skipGap_of_head? fun c hc ↦ List.all_eq_true.mp hname.chars c ?_
  obtain ⟨hfirst, -⟩ := hname
  rw [labelText_append] at hc
  cases h : name.toList with
  | nil => simp [h] at hfirst
  | cons d cs =>
    rw [h] at hc
    cases hc
    exact List.mem_cons_self

/-- Two labels read back from between their braces. -/
theorem labels?_pair (hname : IsLabelName name) (hother : IsLabelName other)
    (value value' : String) (rest : List Char) :
    labels? ('\x7b' :: (labelText name value ++
      ',' :: (labelText other value' ++ '\x7d' :: rest))) =
        some ([(name, value), (other, value')], rest) := by
  have hfirst := label?_labelText hname value (',' :: (labelText other value' ++ '\x7d' :: rest))
  have hcomma : comma? (',' :: (labelText other value' ++ '\x7d' :: rest)) =
      some (labelText other value' ++ '\x7d' :: rest) :=
    congrArg some (skipGap_labelText hother value' _)
  have hsecond := label?_labelText hother value' ('\x7d' :: rest)
  have hlabels : ∀ bound, separated label? comma? (bound + 2) (labelText name value ++
      ',' :: (labelText other value' ++ '\x7d' :: rest)) =
        some ([(name, value), (other, value')], '\x7d' :: rest) :=
    fun bound ↦ Scanner.separated_cons hfirst hcomma (Scanner.separated_last hsecond rfl)
  have hlabels₀ : separated₀ label? comma? (labelText name value ++
      ',' :: (labelText other value' ++ '\x7d' :: rest)) =
        ([(name, value), (other, value')], '\x7d' :: rest) := by
    rw [separated₀, List.length_append, List.length_cons, ← Nat.add_assoc]
    exact congrArg (Option.getD · _) (hlabels _)
  rw [labels?, skipGap_labelText hname, hlabels₀]
  rfl

end Label

/-! ### Samples -/

/-- The line of a sample, without the newline at its end. -/
def sampleText (application : String) (sample : String × Nat) : List Char :=
  metric.toList ++ '\x7b' :: (labelText "queue" sample.1 ++
    ',' :: (labelText "application" application ++
      '\x7d' :: ' ' :: (toString sample.2).toList))

/-- What the line of a sample is to say. -/
def said (application : String) (sample : String × Nat) : Line :=
  .sample metric [("queue", sample.1), ("application", application)] sample.2

theorem sampleLine_eq (application : String) (sample : String × Nat) :
    sampleLine application sample = sampleText application sample ++ ['\n'] := by
  simp [sampleLine, sampleText, labelText]

theorem newline_notMem_labelText {name : String} (h : '\n' ∉ name.toList) (value : String) :
    '\n' ∉ labelText name value := by
  simp [labelText, h, newline_notMem_escapeLabel]

theorem newline_notMem_sampleText (application : String) (sample : String × Nat) :
    '\n' ∉ sampleText application sample := by
  have hmetric : '\n' ∉ metric.toList := by decide +kernel
  have hdigits : '\n' ∉ (toString sample.2).toList := fun h ↦ nomatch isDigit_of_mem_toString h
  rw [sampleText]
  simp only [List.mem_append, List.mem_cons, not_or]
  exact ⟨hmetric, by decide, newline_notMem_labelText (by decide +kernel) _, by decide,
    newline_notMem_labelText (by decide +kernel) _, by decide, by decide, hdigits⟩

/-- **The line of a sample says that sample.** -/
theorem sample?_sampleText (application : String) (sample : String × Nat) :
    sample? (sampleText application sample) = some (said application sample) := by
  have hqueue : IsLabelName "queue" := ⟨by decide +kernel, by decide +kernel⟩
  have happlication : IsLabelName "application" := ⟨by decide +kernel, by decide +kernel⟩
  have hlabels := labels?_pair hqueue happlication sample.1 application
    (' ' :: (toString sample.2).toList)
  have hbrace (cs : List Char) : skipGap ('\x7b' :: cs) = '\x7b' :: cs := rfl
  have hspace : skipGap (' ' :: (toString sample.2).toList) = (toString sample.2).toList := by
    show skipGap (toString sample.2).toList = _
    refine skipGap_of_head? fun c hc ↦ ?_
    have hdigit : c.isDigit = true := isDigit_of_mem_toString (List.mem_of_mem_head? hc)
    rw [isNameChar, Char.isAlphanum, hdigit, Bool.or_true, Bool.true_or]
  have hvalue : number? (toString sample.2).toList = some (sample.2, []) := by
    rw [← List.append_nil (toString sample.2).toList]
    exact number?_append sample.2 nofun
  rw [sample?, sampleText,
    name?_append (by decide +kernel) (by decide +kernel) (by simp [isMetricChar, isNameChar])]
  simp only [Option.bind_eq_bind, Option.bind_some, String.ofList_toList, hbrace, hlabels, hspace,
    hvalue]
  exact if_pos rfl

theorem exists_sampleText_eq_cons (application : String) (sample : String × Nat) :
    ∃ rest, sampleText application sample = 'c' :: rest := by
  have hmetric : metric.toList = 'c' :: metric.toList.tail := by decide +kernel
  rw [sampleText, hmetric]
  exact ⟨_, rfl⟩

theorem line?_sampleText (application : String) (sample : String × Nat) :
    line? (sampleText application sample) = some (said application sample) := by
  obtain ⟨rest, hrest⟩ := exists_sampleText_eq_cons application sample
  have hgap : skipGap ('c' :: rest) = 'c' :: rest := rfl
  rw [← sample?_sampleText, hrest, line?, hgap, List.head?_cons]
  exact if_neg (by decide)

/-! ### Expositions -/

/-- The comments, as they are read. -/
def comments : List Line :=
  [.comment "# HELP cascade_messages_in_queue Approximate number of messages waiting in a queue.",
    .comment "# TYPE cascade_messages_in_queue gauge"]

/-- The comments, as they are written. -/
def commentTexts : List (List Char) :=
  ["# HELP cascade_messages_in_queue Approximate number of messages waiting in a queue.".toList,
    "# TYPE cascade_messages_in_queue gauge".toList]

/-- The lines of an exposition. -/
def texts (application : String) (samples : List (String × Nat)) : List (List Char) :=
  commentTexts ++ samples.map (sampleText application)

theorem toList_render (application : String) (samples : List (String × Nat)) :
    (render application samples).toList = (texts application samples).flatMap (· ++ ['\n']) := by
  have hheader : header = commentTexts.flatMap (· ++ ['\n']) := by decide +kernel
  rw [render, String.toList_ofList, texts, List.flatMap_append, List.flatMap_map, hheader]
  exact congrArg _ (List.flatMap_congr fun sample _ ↦ sampleLine_eq application sample)

theorem newline_notMem_texts {application : String} {samples : List (String × Nat)} :
    ∀ text ∈ texts application samples, '\n' ∉ text := by
  intro text htext
  rcases List.mem_append.mp htext with htext | htext
  · exact (by decide +kernel : ∀ text ∈ commentTexts, '\n' ∉ text) text htext
  · obtain ⟨sample, -, rfl⟩ := List.mem_map.mp htext
    exact newline_notMem_sampleText application sample

theorem skipGap_ne_nil_of_mem_texts {application : String} {samples : List (String × Nat)} :
    ∀ text ∈ texts application samples, skipGap text ≠ [] := by
  intro text htext
  rcases List.mem_append.mp htext with htext | htext
  · exact (by decide +kernel : ∀ text ∈ commentTexts, skipGap text ≠ []) text htext
  · obtain ⟨sample, -, rfl⟩ := List.mem_map.mp htext
    obtain ⟨rest, hrest⟩ := exists_sampleText_eq_cons application sample
    rw [hrest]
    exact List.cons_ne_nil 'c' rest

/-- What the lines of an exposition say. -/
theorem mapM_texts (application : String) (samples : List (String × Nat)) :
    (texts application samples).mapM line? =
      some (comments ++ samples.map (said application)) := by
  have hcomments : commentTexts.mapM line? = some comments := by decide +kernel
  have hsamples : (samples.map (sampleText application)).mapM line? =
      some (samples.map (said application)) := by
    induction samples with
    | nil => rfl
    | cons sample samples ih =>
      rw [List.map_cons, List.mapM_cons, line?_sampleText, ih]
      rfl
  rw [texts, List.mapM_append, hcomments, hsamples, Option.bind_eq_bind, Option.bind_some,
    Option.bind_some, Option.pure_def]

/-- **What is rendered reads back.** -/
theorem read?_render (application : String) (samples : List (String × Nat)) :
    read? (render application samples) = some (comments ++ samples.map (said application)) := by
  have hlines : (texts application samples).filter (fun text ↦ skipGap text ≠ []) =
      texts application samples :=
    List.filter_eq_self.mpr fun text htext ↦ decide_eq_true (skipGap_ne_nil_of_mem_texts text htext)
  rw [read?, toList_render, lines?_flatMap newline_notMem_texts, Option.bind_eq_bind,
    Option.bind_some, hlines, mapM_texts]

/-- What samples say tells them apart, and their applications if there is a sample. -/
theorem map_said_eq_iff {application application' : String}
    {samples samples' : List (String × Nat)} :
    samples.map (said application) = samples'.map (said application') ↔
      samples = samples' ∧ (samples = [] ∨ application = application') := by
  induction samples generalizing samples' with
  | nil => cases samples' <;> simp
  | cons sample samples ih =>
    cases samples' with
    | nil => simp
    | cons sample' samples' =>
      obtain ⟨queue, value⟩ := sample
      obtain ⟨queue', value'⟩ := sample'
      simp only [List.map_cons, List.cons.injEq, ih, said, Line.sample.injEq, Prod.mk.injEq]
      grind

/-- **An exposition reads back exactly,** whatever characters the names in it are made of.
* Of the exposition of some samples the reader makes the two comments and one sample for each, in
  their order, with its queue, the application and its value. The newlines in the text are those at
  the ends of these lines.
* So the text tells the samples apart. It tells the applications apart if there is a sample, as the
  application is written nowhere else.
* The exposition of the gauges reads back as the gauges. -/
theorem read?_render_exact :
    (∀ application samples,
      read? (render application samples) = some (comments ++ samples.map (said application)) ∧
        (render application samples).toList.count '\n' = 2 + samples.length) ∧
      (∀ application, Function.Injective (render application)) ∧
      (∀ application application' samples samples',
        render application samples = render application' samples' ↔
          samples = samples' ∧ (samples = [] ∨ application = application')) ∧
      ∀ g : Gauges, read? g.render = some (comments ++ g.readings.map (said g.application)) := by
  have hinj (application application' : String) (samples samples' : List (String × Nat)) :
      render application samples = render application' samples' ↔
        samples = samples' ∧ (samples = [] ∨ application = application') := by
    rw [← map_said_eq_iff]
    constructor
    · intro h
      have hread := congrArg read? h
      rw [read?_render, read?_render] at hread
      exact List.append_cancel_left (Option.some.inj hread)
    · intro h
      obtain ⟨rfl, rfl | rfl⟩ := map_said_eq_iff.mp h
      · rw [render, render, List.flatMap_nil, List.flatMap_nil]
      · rfl
  refine ⟨fun application samples ↦ ⟨read?_render application samples, ?_⟩,
    fun application samples samples' h ↦ ((hinj ..).mp h).1, hinj, fun g ↦ read?_render ..⟩
  rw [toList_render, count_flatMap newline_notMem_texts, texts, List.length_append,
    List.length_map]
  rfl

end QueueScaler.Exposition
