import LineShell.Proofs.Word.Reading

/-! # The grammar of a line — which words a text is made of

    What the reader of words accepts, said without the reader.  A line is
    made of separators, backslashes with a line feed, which vanish, words,
    and at most one comment that runs to its end.  A word is one segment
    or more, and vanishing pairs may stand among them; it ends where the
    line ends or a separator stands.

    * `Derives cs ts`: the text `cs` is a line whose words are `ts`;
    * `Unreadable p cs`: after whole words and separators, `cs` ends in a
      construct that is not finished, and `p` says which.

    Reading a line gives exactly the words that the grammar derives, and
    fails exactly where the grammar derives nothing.  Each derivation is
    followed by the reader (`words_of_derives`, `words_of_unreadable`).
    For the converse, `Mode.Left` says of every mode of the reader what
    the grammar has left to derive there, and one induction on the text
    shows that the reader keeps to it. -/

namespace LineShell

/-! ## The grammar -/

/-- What stands between double quotes, and the text that it means. -/
inductive DoubleRun : List Char → List Char → Prop where
  | nil : DoubleRun [] []
  | escaped {c : Char} {src text : List Char} :
      Escapable c → DoubleRun src text →
      DoubleRun ('\\' :: c :: src) (c :: text)
  | lineFeed {src text : List Char} :
      DoubleRun src text → DoubleRun ('\\' :: '\n' :: src) text
  /-- Any other backslash is kept. -/
  | kept {c : Char} {src text : List Char} :
      ¬ Escapable c → c ≠ '\n' → DoubleRun src text →
      DoubleRun ('\\' :: c :: src) ('\\' :: c :: text)
  | plain {c : Char} {src text : List Char} :
      c ≠ '"' → c ≠ '\\' → DoubleRun src text →
      DoubleRun (c :: src) (c :: text)

/-- A part of a word, and the text that it means. -/
inductive Segment : List Char → List Char → Prop where
  | plain {c : Char} : Ordinary c → Segment [c] [c]
  | escaped {c : Char} : c ≠ '\n' → Segment ['\\', c] [c]
  | single {q : List Char} :
      '\'' ∉ q → Segment ('\'' :: (q ++ ['\''])) q
  | double {src text : List Char} :
      DoubleRun src text → Segment ('"' :: (src ++ ['"'])) text

/-- What a word in progress goes on with. -/
inductive WordRest : List Char → List Char → Prop where
  | nil : WordRest [] []
  | lineFeed {src text : List Char} :
      WordRest src text → WordRest ('\\' :: '\n' :: src) text
  | segment {s t src text : List Char} :
      Segment s t → WordRest src text → WordRest (s ++ src) (t ++ text)

/-- A whole word: a segment that does not start a comment, and what
    follows it. -/
inductive WordForm : List Char → List Char → Prop where
  | intro {s t src text : List Char} :
      Segment s t → s.head? ≠ some '#' → WordRest src text →
      WordForm (s ++ src) (t ++ text)

/-- Where a word may end: at the end of the line or before a separator. -/
def AtBoundary (rest : List Char) : Prop :=
  ∀ c ∈ rest.head?, Separates c

/-- The words of a line. -/
inductive Derives : List Char → List (List Char) → Prop where
  | nil : Derives [] []
  | separator {c : Char} {rest : List Char} {ts : List (List Char)} :
      Separates c → Derives rest ts → Derives (c :: rest) ts
  | lineFeed {rest : List Char} {ts : List (List Char)} :
      Derives rest ts → Derives ('\\' :: '\n' :: rest) ts
  | comment {rest : List Char} : Derives ('#' :: rest) []
  | word {src text rest : List Char} {ts : List (List Char)} :
      WordForm src text → AtBoundary rest → Derives rest ts →
      Derives (src ++ rest) (text :: ts)

/-- A construct that the end of the line cuts off. -/
inductive CutOff : LineProblem → List Char → Prop where
  | single {q : List Char} :
      '\'' ∉ q → CutOff .openSingleQuote ('\'' :: q)
  | double {src text : List Char} :
      DoubleRun src text → CutOff .openDoubleQuote ('"' :: src)
  /-- The last character is a backslash between double quotes. -/
  | doubleBackslash {src text : List Char} :
      DoubleRun src text → CutOff .openDoubleQuote ('"' :: (src ++ ['\\']))
  | backslash : CutOff .nothingEscaped ['\\']

/-- A line with a construct that is cut off. -/
inductive Unreadable : LineProblem → List Char → Prop where
  | separator {p : LineProblem} {c : Char} {rest : List Char} :
      Separates c → Unreadable p rest → Unreadable p (c :: rest)
  | lineFeed {p : LineProblem} {rest : List Char} :
      Unreadable p rest → Unreadable p ('\\' :: '\n' :: rest)
  | word {p : LineProblem} {src text rest : List Char} :
      WordForm src text → AtBoundary rest → Unreadable p rest →
      Unreadable p (src ++ rest)
  /-- The construct starts a word. -/
  | start {p : LineProblem} {rest : List Char} :
      CutOff p rest → Unreadable p rest
  /-- The construct stands inside a word. -/
  | inside {p : LineProblem} {src text rest : List Char} :
      WordForm src text → CutOff p rest → Unreadable p (src ++ rest)

/-! ## What is derived is read -/

open Mode

/-- The reader takes a run between double quotes for its text. -/
theorem DoubleRun.reads {src text : List Char} (h : DoubleRun src text) :
    ∀ d : Draft,
      (double d).Reads src (double { d with chars := d.chars ++ text }) := by
  induction h with
  | nil =>
      intro d
      rw [List.append_nil]
      exact .nil _
  | @escaped c src text he _ ih =>
      intro d
      have rest := ih (d.addQuoted c)
      rw [Draft.addQuoted_append] at rest
      exact .cons rfl (.cons (next_doubleEscape_escapable he) rest)
  | lineFeed _ ih =>
      intro d
      exact .cons rfl (.cons rfl (ih d))
  | @kept c src text he hn _ ih =>
      intro d
      have rest := ih ((d.addQuoted '\\').addQuoted c)
      rw [Draft.addQuoted_append, Draft.addQuoted_append] at rest
      exact .cons rfl (.cons (next_doubleEscape_other he hn) rest)
  | @plain c src text h1 h2 _ ih =>
      intro d
      have rest := ih (d.addQuoted c)
      rw [Draft.addQuoted_append] at rest
      exact .cons (next_double_other h1 h2) rest

/-- The reader takes a quoted run, opened in some draft, for its text. -/
theorem reads_double_quoted {src text : List Char} (h : DoubleRun src text)
    (d : Draft) :
    (double d).Reads (src ++ ['"'])
      (word { d with chars := d.chars ++ text }) :=
  (h.reads d).append (.single rfl)

theorem reads_single_quoted {q : List Char} (h : '\'' ∉ q) (d : Draft) :
    (single d).Reads (q ++ ['\''])
      (word { d with chars := d.chars ++ q }) :=
  (reads_single h d).append (.single rfl)

/-- Inside a word a segment adds its text, and leaves the count of bare
    characters as it will be. -/
theorem Segment.reads {s t : List Char} (h : Segment s t) (d : Draft) :
    ∃ d', (word d).Reads s (word d') ∧ d'.chars = d.chars ++ t ∧
      ∀ rest, d'.counts rest = d.counts (s ++ rest) := by
  cases h with
  | plain hc =>
      exact ⟨_, .single (next_word_ordinary hc), rfl,
        fun _ => d.counts_addPlain hc⟩
  | escaped hn =>
      exact ⟨_, .cons rfl (.single (next_escape_some hn)), rfl,
        fun _ => Draft.counts_marked rfl rfl (bareRun_escape hn)⟩
  | single hq =>
      exact ⟨_, .cons rfl (reads_single_quoted hq d.quoted), rfl,
        fun _ => Draft.counts_marked rfl rfl (bareRun_quote (.inl rfl))⟩
  | double hr =>
      exact ⟨_, .cons rfl (reads_double_quoted hr d.quoted), rfl,
        fun _ => Draft.counts_marked rfl rfl (bareRun_quote (.inr rfl))⟩

/-- In a gap a segment is read as in a word without characters, unless it
    starts a comment. -/
theorem Segment.reads_gap {s t : List Char} (h : Segment s t)
    (hash : s.head? ≠ some '#') {m : Mode}
    (hr : (Mode.word .fresh).Reads s m) : gap.Reads s m := by
  cases h with
  | @plain c hc =>
      have first : c ≠ '#' := fun e => hash (by rw [e]; rfl)
      rw [Reads, advance_cons, next_word_ordinary hc] at hr
      rw [Reads, advance_cons, next_gap_ordinary hc first]
      exact hr
  | @escaped c hn =>
      rw [Reads, advance_cons, advance_cons] at hr ⊢
      rw [show (gap.next '\\').1 = escape none from rfl,
        next_escape_none hn]
      rw [show ((word Draft.fresh).next '\\').1 = escape (some .fresh) from
        rfl, next_escape_some hn] at hr
      exact hr
  | single _ => exact hr
  | double _ => exact hr

theorem WordRest.reads {src text : List Char} (h : WordRest src text) :
    ∀ d : Draft, ∃ d', (word d).Reads src (word d') ∧
      d'.chars = d.chars ++ text ∧ d'.plain = d.counts src := by
  induction h with
  | nil =>
      intro d
      exact ⟨d, .nil _, (List.append_nil _).symm, d.counts_nil.symm⟩
  | lineFeed _ ih =>
      intro d
      obtain ⟨d', hr, hc, hn⟩ := ih d
      exact ⟨d', .cons rfl (.cons rfl hr), hc, hn⟩
  | segment hs _ ih =>
      intro d
      obtain ⟨d1, hr1, hc1, hn1⟩ := hs.reads d
      obtain ⟨d2, hr2, hc2, hn2⟩ := ih d1
      refine ⟨d2, hr1.append hr2, ?_, hn2.trans (hn1 _)⟩
      rw [hc2, hc1, List.append_assoc]

/-- A word is read for its text, and the characters counted are those of
    its bare run. -/
theorem WordForm.reads {src text : List Char} (h : WordForm src text) :
    ∃ d, gap.Reads src (word d) ∧ d.chars = text ∧
      d.plain = (bareRun src).length := by
  obtain ⟨hs, hash, hr⟩ := h
  obtain ⟨d1, hr1, hc1, hn1⟩ := hs.reads .fresh
  obtain ⟨d2, hr2, hc2, hn2⟩ := hr.reads d1
  refine ⟨d2, (hs.reads_gap hash hr1).append hr2, ?_, ?_⟩
  · rw [hc2, hc1]
    rfl
  · rw [hn2, hn1, Draft.counts_fresh]

/-- The reader finds the words that the grammar derives. -/
theorem words_of_derives {cs : List Char} {ts : List (List Char)}
    (h : Derives cs ts) :
    ∃ ws, gap.words cs = .ok ws ∧ ws.map Word.chars = ts := by
  induction h with
  | nil => exact ⟨[], rfl, rfl⟩
  | separator hc _ ih =>
      rw [words_cons_of_none (next_gap_separator hc)]
      exact ih
  | lineFeed _ ih => exact ih
  | comment =>
      have starts : gap.next '#' = (Mode.comment, none) := rfl
      rw [words_cons_of_none starts]
      exact ⟨[], words_comment _, rfl⟩
  | word hw hb _ ih =>
      obtain ⟨d, hr, hc, -⟩ := hw.reads
      obtain ⟨ws, hok, hts⟩ := ih
      refine ⟨d.word :: ws, ?_, ?_⟩
      · rw [hr.words_append, words_word_of_head hb, hok]
        rfl
      · rw [List.map_cons, hts, ← hc]
        rfl

/-- A construct that is cut off is a problem, inside a word and in a
    gap. -/
theorem CutOff.words {p : LineProblem} {cs : List Char} (h : CutOff p cs) :
    gap.words cs = .error p ∧ ∀ d, (word d).words cs = .error p := by
  have single {q : List Char} (hq : '\'' ∉ q) (d : Draft) :
      (Mode.single d).words q = .error .openSingleQuote := by
    rw [← List.append_nil q, (reads_single hq d).words_append]
    rfl
  have double {src text : List Char} (hr : DoubleRun src text) (d : Draft) :
      (Mode.double d).words src = .error .openDoubleQuote := by
    rw [← List.append_nil src, (hr.reads d).words_append]
    rfl
  have backslash {src text : List Char} (hr : DoubleRun src text)
      (d : Draft) :
      (Mode.double d).words (src ++ ['\\']) = .error .openDoubleQuote := by
    rw [(hr.reads d).words_append]
    rfl
  cases h with
  | single hq => exact ⟨single hq _, fun d => single hq _⟩
  | double hr => exact ⟨double hr _, fun d => double hr _⟩
  | doubleBackslash hr => exact ⟨backslash hr _, fun d => backslash hr _⟩
  -- nothing is left to escape, in whichever mode the backslash was met
  | backslash => exact ⟨rfl, fun d => rfl⟩

theorem words_of_unreadable {p : LineProblem} {cs : List Char}
    (h : Unreadable p cs) : gap.words cs = .error p := by
  induction h with
  | separator hc _ ih =>
      rw [words_cons_of_none (next_gap_separator hc)]
      exact ih
  | lineFeed _ ih => exact ih
  | word hw hb _ ih =>
      obtain ⟨d, hr, -⟩ := hw.reads
      rw [hr.words_append, words_word_of_head hb, ih]
      rfl
  | start hc => exact hc.words.1
  -- the word before the construct is lost with it
  | inside hw hc =>
      obtain ⟨d, hr, -⟩ := hw.reads
      rw [hr.words_append]
      exact hc.words.2 d

/-! ## What is read is derived -/

/-- What reading comes to: the texts of words, or a problem. -/
abbrev Reading := Except LineProblem (List (List Char))

/-- What the grammar makes of a text from a gap on. -/
def GapLeft (cs : List Char) : Reading → Prop
  | .ok ts => Derives cs ts
  | .error p => Unreadable p cs

/-- What the grammar makes of a text in a word with the text `done`. -/
def WordLeft (done cs : List Char) (o : Reading) : Prop :=
  ∃ src text rest, cs = src ++ rest ∧ WordRest src text ∧
    ((AtBoundary rest ∧
        ∃ o', GapLeft rest o' ∧ o = o'.map ((done ++ text) :: ·)) ∨
      ∃ p, CutOff p rest ∧ o = .error p)

/-- What the grammar makes of a text between single quotes. -/
def SingleLeft (done cs : List Char) (o : Reading) : Prop :=
  ('\'' ∉ cs ∧ o = .error .openSingleQuote) ∨
    ∃ q rest, cs = q ++ '\'' :: rest ∧ '\'' ∉ q ∧
      WordLeft (done ++ q) rest o

/-- What the grammar makes of a text between double quotes. -/
def DoubleLeft (done cs : List Char) (o : Reading) : Prop :=
  (∃ src text, DoubleRun src text ∧ (cs = src ∨ cs = src ++ ['\\']) ∧
      o = .error .openDoubleQuote) ∨
    ∃ src text rest, cs = src ++ '"' :: rest ∧ DoubleRun src text ∧
      WordLeft (done ++ text) rest o

/-- What the grammar makes of a text that the reader meets in a mode. -/
def Mode.Left : Mode → List Char → Reading → Prop
  | gap, cs, o => GapLeft cs o
  | comment, _, o => o = .ok []
  | word d, cs, o => WordLeft d.chars cs o
  | escape none, cs, o => GapLeft ('\\' :: cs) o
  | escape (some d), cs, o => WordLeft d.chars ('\\' :: cs) o
  | single d, cs, o => SingleLeft d.chars cs o
  | double d, cs, o => DoubleLeft d.chars cs o
  | doubleEscape d, cs, o => DoubleLeft d.chars ('\\' :: cs) o

variable {cs rest done : List Char} {o : Reading}

theorem gapLeft_separator {c : Char} (hc : Separates c)
    (h : GapLeft rest o) : GapLeft (c :: rest) o := by
  cases o with
  | ok ts => exact .separator hc h
  | error p => exact .separator hc h

theorem gapLeft_lineFeed (h : GapLeft rest o) :
    GapLeft ('\\' :: '\n' :: rest) o := by
  cases o with
  | ok ts => exact .lineFeed h
  | error p => exact .lineFeed h

/-- A segment in a gap begins a word. -/
theorem gapLeft_segment {s t : List Char} (hs : Segment s t)
    (hash : s.head? ≠ some '#') (h : WordLeft t rest o) :
    GapLeft (s ++ rest) o := by
  -- the word goes on to a boundary, or to a construct that is cut off
  obtain ⟨src, text, after, rfl, hr, ⟨hb, o', hl, rfl⟩ | ⟨p, hc, rfl⟩⟩ := h
  · rw [← List.append_assoc]
    cases o' with
    | ok ts => exact .word ⟨hs, hash, hr⟩ hb hl
    | error p => exact .word ⟨hs, hash, hr⟩ hb hl
  · rw [← List.append_assoc]
    exact .inside ⟨hs, hash, hr⟩ hc

/-- A segment in a word goes on with it. -/
theorem wordLeft_segment {s t : List Char} (hs : Segment s t)
    (h : WordLeft (done ++ t) rest o) : WordLeft done (s ++ rest) o := by
  obtain ⟨src, text, after, rfl, hr, hend⟩ := h
  refine ⟨s ++ src, t ++ text, after, ?_, .segment hs hr, ?_⟩
  · rw [List.append_assoc]
  · rw [← List.append_assoc]
    exact hend

theorem wordLeft_lineFeed (h : WordLeft done rest o) :
    WordLeft done ('\\' :: '\n' :: rest) o := by
  obtain ⟨src, text, after, rfl, hr, hend⟩ := h
  exact ⟨'\\' :: '\n' :: src, text, after, rfl, .lineFeed hr, hend⟩

/-- At a boundary the word is done. -/
theorem wordLeft_of_gapLeft (hb : AtBoundary rest) (h : GapLeft rest o) :
    WordLeft done rest (o.map (done :: ·)) := by
  refine ⟨[], [], rest, rfl, .nil, .inl ⟨hb, o, h, ?_⟩⟩
  rw [List.append_nil]

/-- A construct that is cut off in a word is a problem. -/
theorem wordLeft_of_cutOff {p : LineProblem} (h : CutOff p rest) :
    WordLeft done rest (.error p) :=
  ⟨[], [], rest, rfl, .nil, .inr ⟨p, h, rfl⟩⟩

theorem gapLeft_single (h : SingleLeft [] rest o) :
    GapLeft ('\'' :: rest) o := by
  obtain ⟨hq, rfl⟩ | ⟨q, after, rfl, hq, hw⟩ := h
  · exact .start (.single hq)
  · have closed := gapLeft_segment (.single hq) (by simp) hw
    rwa [List.cons_append, List.append_assoc] at closed

theorem wordLeft_single (h : SingleLeft done rest o) :
    WordLeft done ('\'' :: rest) o := by
  obtain ⟨hq, rfl⟩ | ⟨q, after, rfl, hq, hw⟩ := h
  · exact wordLeft_of_cutOff (.single hq)
  · have closed := wordLeft_segment (.single hq) hw
    rwa [List.cons_append, List.append_assoc] at closed

theorem cutOff_double {src text : List Char} (hr : DoubleRun src text)
    (h : rest = src ∨ rest = src ++ ['\\']) :
    CutOff .openDoubleQuote ('"' :: rest) := by
  rcases h with rfl | rfl
  · exact .double hr
  · exact .doubleBackslash hr

theorem gapLeft_double (h : DoubleLeft [] rest o) :
    GapLeft ('"' :: rest) o := by
  obtain ⟨src, text, hr, he, rfl⟩ | ⟨src, text, after, rfl, hr, hw⟩ := h
  · exact .start (cutOff_double hr he)
  · have closed := gapLeft_segment (.double hr) (by simp) hw
    rwa [List.cons_append, List.append_assoc] at closed

theorem wordLeft_double (h : DoubleLeft done rest o) :
    WordLeft done ('"' :: rest) o := by
  obtain ⟨src, text, hr, he, rfl⟩ | ⟨src, text, after, rfl, hr, hw⟩ := h
  · exact wordLeft_of_cutOff (cutOff_double hr he)
  · have closed := wordLeft_segment (.double hr) hw
    rwa [List.cons_append, List.append_assoc] at closed

/-- A beginning of a run between double quotes is part of the run. -/
theorem doubleLeft_append {s t : List Char}
    (grow : ∀ {src text}, DoubleRun src text →
      DoubleRun (s ++ src) (t ++ text))
    (h : DoubleLeft (done ++ t) rest o) : DoubleLeft done (s ++ rest) o := by
  obtain ⟨src, text, hr, he, rfl⟩ | ⟨src, text, after, rfl, hr, hw⟩ := h
  -- the closing quote is missing, or stands further on
  · refine .inl ⟨s ++ src, t ++ text, grow hr, ?_, rfl⟩
    rcases he with rfl | rfl
    · exact .inl rfl
    · exact .inr (List.append_assoc ..).symm
  · refine .inr ⟨s ++ src, t ++ text, after, ?_, grow hr, ?_⟩
    · rw [List.append_assoc]
    · rwa [← List.append_assoc]

/-! ### One character, by the mode that meets it -/

variable {c : Char} {d : Draft} {m : Mode}

/-- A character is a separator, a backslash, a quote, or ordinary. -/
theorem character_cases (c : Char) :
    Separates c ∨ c = '\\' ∨ c = '\'' ∨ c = '"' ∨ Ordinary c := by
  by_cases hs : Separates c
  · exact .inl hs
  by_cases hb : c = '\\'
  · exact .inr (.inl hb)
  by_cases h1 : c = '\''
  · exact .inr (.inr (.inl h1))
  by_cases h2 : c = '"'
  · exact .inr (.inr (.inr (.inl h2)))
  · exact .inr (.inr (.inr (.inr ⟨hs, hb, h1, h2⟩)))

theorem left_gap (h : (gap.next c).1.Left cs o) : GapLeft (c :: cs) o := by
  rcases character_cases c with hs | rfl | rfl | rfl | hc
  · rw [next_gap_separator hs] at h
    exact gapLeft_separator hs h
  · exact h
  · exact gapLeft_single h
  · exact gapLeft_double h
  · by_cases hash : c = '#'
    · subst hash
      -- in a comment there are no more words, whatever the text is
      cases (show o = .ok [] from h)
      exact Derives.comment
    · rw [next_gap_ordinary hc hash] at h
      refine gapLeft_segment (.plain hc) ?_ h
      intro e
      exact hash (Option.some.inj e)

theorem reading_append_nil (o : Reading) :
    o.map (([] : List (List Char)) ++ ·) = o := by
  cases o <;> rfl

/-- A word is ended by a separator only. -/
theorem left_word (h : ((word d).next c).1.Left cs o) :
    WordLeft d.chars (c :: cs)
      (o.map ((((word d).next c).2.toList.map Word.chars) ++ ·)) := by
  by_cases hs : Separates c
  · rw [next_word_separator hs] at h ⊢
    have boundary : AtBoundary (c :: cs) := by
      intro x hx
      rw [List.head?_cons, Option.mem_some_iff] at hx
      rw [← hx]
      exact hs
    exact wordLeft_of_gapLeft boundary (gapLeft_separator hs h)
  · rw [next_word_ends_none hs]
    show WordLeft d.chars (c :: cs) (o.map ([] ++ ·))
    rw [reading_append_nil]
    rcases character_cases c with hc | rfl | rfl | rfl | hc
    · exact absurd hc hs
    · exact h
    · exact wordLeft_single h
    · exact wordLeft_double h
    · rw [next_word_ordinary hc] at h
      exact wordLeft_segment (.plain hc) h

theorem left_escape_none (h : ((escape none).next c).1.Left cs o) :
    GapLeft ('\\' :: c :: cs) o := by
  by_cases hn : c = '\n'
  · subst hn
    exact gapLeft_lineFeed h
  · rw [next_escape_none hn] at h
    exact gapLeft_segment (.escaped hn) (by simp) h

theorem left_escape_some (h : ((escape (some d)).next c).1.Left cs o) :
    WordLeft d.chars ('\\' :: c :: cs) o := by
  by_cases hn : c = '\n'
  · subst hn
    exact wordLeft_lineFeed h
  · rw [next_escape_some hn] at h
    exact wordLeft_segment (.escaped hn) h

theorem left_single (h : ((Mode.single d).next c).1.Left cs o) :
    SingleLeft d.chars (c :: cs) o := by
  by_cases hq : c = '\''
  · subst hq
    refine .inr ⟨[], cs, rfl, List.not_mem_nil, ?_⟩
    rw [List.append_nil]
    exact h
  · rw [next_single_other hq] at h
    obtain ⟨hn, rfl⟩ | ⟨q, rest, rfl, hn, hw⟩ := h
    · exact .inl ⟨List.not_mem_cons_of_ne_of_not_mem (Ne.symm hq) hn, rfl⟩
    · refine .inr ⟨c :: q, rest, rfl, ?_, ?_⟩
      · exact List.not_mem_cons_of_ne_of_not_mem (Ne.symm hq) hn
      · have joined : d.chars ++ c :: q = (d.addQuoted c).chars ++ q := by
          simp [Draft.addQuoted]
        rw [joined]
        exact hw

theorem left_double (h : ((Mode.double d).next c).1.Left cs o) :
    DoubleLeft d.chars (c :: cs) o := by
  by_cases hq : c = '"'
  · subst hq
    refine .inr ⟨[], [], cs, rfl, .nil, ?_⟩
    rw [List.append_nil]
    exact h
  · by_cases hb : c = '\\'
    · subst hb
      exact h
    · rw [next_double_other hq hb] at h
      exact doubleLeft_append (s := [c]) (t := [c]) (.plain hq hb) h

/-- A backslash between double quotes escapes, vanishes or is kept. -/
theorem left_doubleEscape (h : ((doubleEscape d).next c).1.Left cs o) :
    DoubleLeft d.chars ('\\' :: c :: cs) o := by
  by_cases he : Escapable c
  · rw [next_doubleEscape_escapable he] at h
    exact doubleLeft_append (s := ['\\', c]) (t := [c]) (.escaped he) h
  · by_cases hn : c = '\n'
    · subst hn
      refine doubleLeft_append (s := ['\\', '\n']) (t := []) .lineFeed ?_
      rw [List.append_nil]
      exact h
    · rw [next_doubleEscape_other he hn] at h
      have joined : ((d.addQuoted '\\').addQuoted c).chars =
          d.chars ++ ['\\', c] := by
        simp [Draft.addQuoted]
      refine doubleLeft_append (s := ['\\', c]) (t := ['\\', c])
        (.kept he hn) ?_
      rw [← joined]
      exact h

/-- Only a word in progress ends a word. -/
theorem next_ends_none (hm : ∀ d, m ≠ word d) (c : Char) :
    (m.next c).2 = none := by
  cases m with
  | gap => grind [next]
  | comment => rfl
  | word d => exact absurd rfl (hm d)
  | escape d => cases d <;> grind [next]
  | single d => grind [next]
  | double d => grind [next]
  | doubleEscape d => grind [next]

/-- What is left before a character, from what is left after it and the
    word that it ends. -/
theorem left_next (m : Mode) (h : (m.next c).1.Left cs o) :
    m.Left (c :: cs)
      (o.map (((m.next c).2.toList.map Word.chars) ++ ·)) := by
  by_cases hm : ∃ d, m = word d
  · obtain ⟨d, rfl⟩ := hm
    exact left_word h
  · have ends := next_ends_none (fun d e => hm ⟨d, e⟩) c
    rw [ends]
    show m.Left (c :: cs) (o.map ([] ++ ·))
    rw [reading_append_nil]
    cases m with
    | gap => exact left_gap h
    | comment => exact h
    -- the one mode with a word to end was met above
    | word d => exact absurd ⟨d, rfl⟩ hm
    | escape d =>
        cases d with
        | none => exact left_escape_none h
        | some d => exact left_escape_some h
    | single d => exact left_single h
    | double d => exact left_double h
    | doubleEscape d => exact left_doubleEscape h

theorem left_nil (m : Mode) :
    m.Left [] (m.close.map (·.toList.map Word.chars)) := by
  cases m with
  | gap => exact Derives.nil
  | comment => rfl
  | word d => exact wordLeft_of_gapLeft nofun (o := .ok []) Derives.nil
  | escape d =>
      cases d with
      | none => exact Unreadable.start .backslash
      | some d => exact wordLeft_of_cutOff .backslash
  | single d => exact .inl ⟨List.not_mem_nil, rfl⟩
  | double d => exact .inl ⟨[], [], .nil, .inl rfl, rfl⟩
  | doubleEscape d => exact .inl ⟨[], [], .nil, .inr rfl, rfl⟩

/-- The texts of the words that reading comes to. -/
def textsOf (r : Except LineProblem (List Word)) : Reading :=
  r.map (·.map Word.chars)

/-- The reader keeps to the grammar, in every mode and on every text. -/
theorem left_words (cs : List Char) :
    ∀ m : Mode, m.Left cs (textsOf (m.words cs)) := by
  -- the mode changes with every character, so it is generalized
  induction cs with
  | nil =>
      intro m
      have read := left_nil m
      rw [words_nil]
      cases hm : m.close with
      | error p => rw [hm] at read; exact read
      | ok last => rw [hm] at read; exact read
  | cons c cs ih =>
      intro m
      have read := left_next m (ih (m.next c).1)
      rw [words_cons]
      cases hw : (m.next c).1.words cs with
      | error p => rw [hw] at read; exact read
      | ok ws =>
          rw [hw] at read
          show m.Left (c :: cs)
            (.ok (((m.next c).2.toList ++ ws).map Word.chars))
          rw [List.map_append]
          exact read

theorem derives_of_words {ws : List Word} (h : gap.words cs = .ok ws) :
    Derives cs (ws.map Word.chars) := by
  have read := left_words cs gap
  rw [h] at read
  exact read

theorem unreadable_of_words {p : LineProblem}
    (h : gap.words cs = .error p) : Unreadable p cs := by
  have read := left_words cs gap
  rw [h] at read
  exact read

/-! ## The reader and the grammar -/

theorem derives_iff {ts : List (List Char)} :
    Derives cs ts ↔ textsOf (tokenize cs) = .ok ts := by
  constructor
  · intro h
    obtain ⟨ws, hw, rfl⟩ := words_of_derives h
    rw [tokenize, hw]
    rfl
  · intro h
    cases hw : tokenize cs with
    | error p => rw [hw] at h; exact nomatch h
    | ok ws =>
        rw [hw] at h
        cases h
        exact derives_of_words hw

theorem unreadable_iff {p : LineProblem} :
    Unreadable p cs ↔ tokenize cs = .error p :=
  ⟨words_of_unreadable, unreadable_of_words⟩

/-- Words have given texts just if they have the characters of these. -/
theorem map_text_eq_iff {ws : List Word} {texts : List String} :
    ws.map Word.text = texts ↔ ws.map Word.chars = texts.map String.toList := by
  have there : (ws.map Word.text).map String.toList = ws.map Word.chars := by
    simp [Word.text, Function.comp_def]
  have back : (ws.map Word.chars).map String.ofList = ws.map Word.text := by
    simp [Word.text, Function.comp_def]
  constructor
  · intro h
    rw [← h, there]
  · intro h
    rw [← back, h]
    simp [Function.comp_def]

/-- Splitting a line gives the words that the grammar derives, there is at
    most one list of them, and splitting fails exactly on the lines for
    which the grammar derives nothing: then some construct is cut off, and
    the fault names it and carries the whole line. -/
theorem splitWords_iff_derives (line : String) :
    (∀ ws, splitWords line = .ok ws ↔
        Derives line.toList (ws.map String.toList)) ∧
      (∀ ts us, Derives line.toList ts → Derives line.toList us → ts = us) ∧
      (∀ e, splitWords line = .error e ↔
        ∃ p, Unreadable p line.toList ∧ e = ⟨p, line⟩) ∧
      ((∃ p, Unreadable p line.toList) ↔ ¬ ∃ ts, Derives line.toList ts) := by
  simp only [derives_iff, unreadable_iff, splitWords]
  cases tokenize line.toList with
  | error p =>
      refine ⟨fun ws => ⟨nofun, nofun⟩, nofun, fun e => ?_, ?_⟩
      · constructor
        · intro h
          exact ⟨p, rfl, (Except.error.inj h).symm⟩
        · rintro ⟨q, hq, rfl⟩
          rw [Except.error.inj hq]
      · constructor
        · rintro - ⟨ts, h⟩
          exact nomatch h
        · intro _
          exact ⟨p, rfl⟩
  | ok words =>
      refine ⟨fun ws => ?_, ?_, fun e => ⟨nofun, ?_⟩, ?_⟩
      · constructor
        · intro h
          exact congrArg Except.ok (map_text_eq_iff.mp (Except.ok.inj h))
        · intro h
          exact congrArg Except.ok (map_text_eq_iff.mpr (Except.ok.inj h))
      · intro ts us ht hu
        exact (Except.ok.inj ht).symm.trans (Except.ok.inj hu)
      · rintro ⟨p, hp, -⟩
        exact nomatch hp
      · constructor
        · rintro ⟨p, hp⟩
          exact nomatch hp
        · intro none
          exact absurd ⟨_, rfl⟩ none

end LineShell
