import LineShell.Proofs.Word.Grammar

/-! # Layouts — how the words of a line are spelled

    The grammar of a line tells the texts of its words.  Some of what a
    line means is not in these texts: whether a word counts as an
    assignment depends on how it is spelled, and whether a line goes on
    depends on how it ends.  A layout keeps both.

    * `Layout e cs ws`: the text `cs` is a line with the words `ws`, each
      with its spelling, and it ends as `e` says.
    * `Spelling.word` is what the reader keeps of a word: of its spelling
      nothing but a number, the length of its bare run.

    A line has a layout just if the grammar derives its words
    (`derives_iff_layout`), and the reader finds the words of each layout
    (`Layout.words`).  There is never more than one: what stands first in a
    text says which rule its layout begins with (`Layout.by_start`), and a
    word ends at the first boundary behind it (`Layout.unique`). -/

namespace LineShell

/-- A word as it stands in a line: how it is spelled, and its characters. -/
@[ext]
structure Spelling where
  source : List Char
  chars : List Char
  deriving DecidableEq, Repr

/-- The text of a word. -/
def Spelling.text (w : Spelling) : String :=
  String.ofList w.chars

/-- How a line ends: in a comment, or clear of one. -/
inductive LineEnd where
  | clear
  | comment
  deriving DecidableEq, Repr

/-- How a text is made up of words, and how it ends. -/
inductive Layout : LineEnd → List Char → List Spelling → Prop where
  | nil : Layout .clear [] []
  | comment {rest : List Char} : Layout .comment ('#' :: rest) []
  | separator {e : LineEnd} {c : Char} {rest : List Char}
      {ws : List Spelling} :
      Separates c → Layout e rest ws → Layout e (c :: rest) ws
  | lineFeed {e : LineEnd} {rest : List Char} {ws : List Spelling} :
      Layout e rest ws → Layout e ('\\' :: '\n' :: rest) ws
  | word {e : LineEnd} {w : Spelling} {rest : List Char}
      {ws : List Spelling} :
      WordForm w.source w.chars → AtBoundary rest → Layout e rest ws →
      Layout e (w.source ++ rest) (w :: ws)

variable {e e' : LineEnd} {cs rest src text s t : List Char}
variable {ws ws' : List Spelling} {c : Char}

/-! ## Layouts and the grammar -/

theorem Layout.derives (h : Layout e cs ws) :
    Derives cs (ws.map Spelling.chars) := by
  induction h with
  | nil => exact .nil
  | comment => exact .comment
  | separator hc _ ih => exact .separator hc ih
  | lineFeed _ ih => exact .lineFeed ih
  | word hw hb _ ih => exact .word hw hb ih

/-- The grammar derives the words of the layouts of a line. -/
theorem derives_iff_layout {ts : List (List Char)} :
    Derives cs ts ↔
      ∃ e ws, Layout e cs ws ∧ ws.map Spelling.chars = ts := by
  constructor
  · intro h
    induction h with
    | nil => exact ⟨.clear, [], .nil, rfl⟩
    | comment => exact ⟨.comment, [], .comment, rfl⟩
    | separator hc _ ih =>
        obtain ⟨e, ws, hl, hts⟩ := ih
        exact ⟨e, ws, .separator hc hl, hts⟩
    | lineFeed _ ih =>
        obtain ⟨e, ws, hl, hts⟩ := ih
        exact ⟨e, ws, .lineFeed hl, hts⟩
    | @word src text _ _ hw hb _ ih =>
        obtain ⟨e, ws, hl, hts⟩ := ih
        have whole := Layout.word (w := ⟨src, text⟩) hw hb hl
        exact ⟨e, _, whole, congrArg (text :: ·) hts⟩
  · rintro ⟨e, ws, hl, rfl⟩
    exact hl.derives

/-! ## Bare characters -/

/-- A segment is one bare character, or with it the word ceases to be
    bare. -/
theorem Segment.bare_or_marked (h : Segment s t) :
    (∃ c, Ordinary c ∧ s = [c] ∧ t = [c]) ∨
      ∀ rest, bareRun (s ++ rest) = [] := by
  cases h with
  | @plain c hc => exact .inl ⟨c, hc, rfl, rfl⟩
  | escaped hn => exact .inr fun _ => bareRun_escape hn
  | single _ => exact .inr fun _ => bareRun_quote (.inl rfl)
  | double _ => exact .inr fun _ => bareRun_quote (.inr rfl)

/-- If the bare run of the rest of a word starts the text of the rest, then
    it is so with a segment before it. -/
theorem Segment.bareRun_prefix (h : Segment s t)
    (hrest : bareRun src <+: text) : bareRun (s ++ src) <+: t ++ text := by
  rcases h.bare_or_marked with ⟨c, hc, rfl, rfl⟩ | hmarked
  · rw [List.singleton_append, List.singleton_append, bareRun_ordinary hc]
    exact List.cons_prefix_cons.mpr ⟨rfl, hrest⟩
  · rw [hmarked]
    exact List.nil_prefix

/-- The text of a word starts with the characters that stand bare in it. -/
theorem WordRest.bareRun_prefix (h : WordRest src text) :
    bareRun src <+: text := by
  induction h with
  | nil => exact List.nil_prefix
  | lineFeed _ ih => exact ih
  | segment hs _ ih => exact hs.bareRun_prefix ih

theorem WordForm.bareRun_prefix (h : WordForm src text) :
    bareRun src <+: text := by
  obtain ⟨hs, -, hr⟩ := h
  exact hs.bareRun_prefix hr.bareRun_prefix

/-! ## What the reader makes of a layout -/

open Mode

/-- What the reader makes of a word: its characters, and how many of them
    stand bare. -/
def Spelling.word (w : Spelling) : Word :=
  ⟨w.chars, (bareRun w.source).length⟩

theorem WordForm.reads_word {w : Spelling}
    (h : WordForm w.source w.chars) :
    ∃ d, gap.Reads w.source (Mode.word d) ∧ d.word = w.word := by
  obtain ⟨d, hr, hc, hn⟩ := h.reads
  refine ⟨d, hr, ?_⟩
  rw [Draft.word, Spelling.word, hc, hn]

/-- The reader finds the words of a layout, and counts their bare
    characters. -/
theorem Layout.words (h : Layout e cs ws) :
    gap.words cs = .ok (ws.map Spelling.word) := by
  induction h with
  | nil => rfl
  | comment =>
      have starts : gap.next '#' = (Mode.comment, none) := rfl
      rw [words_cons_of_none starts]
      exact words_comment _
  | separator hc _ ih =>
      rw [words_cons_of_none (next_gap_separator hc)]
      exact ih
  | lineFeed _ ih => exact ih
  | word hw hb _ ih =>
      obtain ⟨d, hr, hd⟩ := hw.reads_word
      rw [hr.words_append, words_word_of_head hb, ih, hd]
      rfl

/-- Every line that can be split has a layout. -/
theorem layout_of_words {words : List Word} (h : gap.words cs = .ok words) :
    ∃ e ws, Layout e cs ws ∧ words = ws.map Spelling.word := by
  obtain ⟨e, ws, hl, -⟩ := derives_iff_layout.mp (derives_of_words h)
  refine ⟨e, ws, hl, ?_⟩
  rw [hl.words] at h
  exact (Except.ok.inj h).symm

/-! ## The texts of the words -/

theorem splitWords_of_ok {line : String} {words : List Word}
    (h : tokenize line.toList = .ok words) :
    splitWords line = .ok (words.map Word.text) := by
  rw [splitWords, h]

theorem splitWords_of_error {line : String} {p : LineProblem}
    (h : tokenize line.toList = .error p) :
    splitWords line = .error ⟨p, line⟩ := by
  rw [splitWords, h]

/-! ## One layout a line -/

/-- What stands first in a text. -/
inductive Start where
  | nothing
  | separator
  | pair
  | comment
  | word

def Start.of : List Char → Start
  | [] => .nothing
  | '\\' :: '\n' :: _ => .pair
  | c :: _ =>
      if Separates c then .separator
      else if c = '#' then .comment
      else .word

theorem Start.of_separator (h : Separates c) :
    Start.of (c :: rest) = .separator := by
  rw [Start.of, if_pos h]
  rintro _ rfl
  exact absurd h (by decide)

theorem Start.of_word (hs : ¬ Separates c) (hash : c ≠ '#')
    (hpair : c = '\\' → rest.head? ≠ some '\n') :
    Start.of (c :: rest) = .word := by
  rw [Start.of, if_neg hs, if_neg hash]
  rintro _ hc rfl
  exact hpair hc rfl

theorem WordForm.start_append (h : WordForm src text) (rest : List Char) :
    Start.of (src ++ rest) = .word := by
  cases h with
  | intro hs hash _ =>
      cases hs with
      | @plain c hc =>
          have first : c ≠ '#' := fun e => hash (by rw [e]; rfl)
          exact Start.of_word hc.1 first fun e => absurd e hc.2.1
      | @escaped c hn =>
          exact Start.of_word (by decide) (by decide)
            fun _ e => hn (Option.some.inj e)
      | single _ => rfl
      | double _ => rfl

/-- What a layout is, by what stands first. -/
theorem Layout.by_start (h : Layout e cs ws) :
    match Start.of cs with
    | .nothing => e = .clear ∧ ws = []
    | .comment => e = .comment ∧ ws = []
    | .separator => Layout e cs.tail ws
    | .pair => Layout e cs.tail.tail ws
    | .word => ∃ w rest more, cs = w.source ++ rest ∧
        WordForm w.source w.chars ∧ AtBoundary rest ∧ ws = w :: more ∧
        Layout e rest more := by
  cases h with
  | nil => exact ⟨rfl, rfl⟩
  | comment => exact ⟨rfl, rfl⟩
  | separator hc hl =>
      rw [Start.of_separator hc]
      exact hl
  | lineFeed hl => exact hl
  | word hw hb hl =>
      rw [hw.start_append]
      exact ⟨_, _, _, rfl, hw, hb, rfl, hl⟩

/-- A word does not go on behind a separator. -/
theorem WordForm.not_longer {more text' : List Char} (h : WordForm src text)
    (h' : WordForm (src ++ more) text') (hb : AtBoundary more) :
    more = [] := by
  cases more with
  | nil => rfl
  | cons c more =>
      obtain ⟨d, hr, -⟩ := h.reads
      obtain ⟨d', hr', -⟩ := h'.reads
      have sep : Separates c := hb c rfl
      -- the separator ends the shorter word, and the longer one has no end
      rw [Reads, advance_append, hr, advance_cons, next_word_separator sep]
        at hr'
      cases (Prod.mk.inj hr').2

theorem WordForm.text_unique {text' : List Char} (h : WordForm src text)
    (h' : WordForm src text') : text = text' := by
  obtain ⟨d, hr, rfl, -⟩ := h.reads
  obtain ⟨d', hr', rfl, -⟩ := h'.reads
  cases hr.symm.trans hr'
  rfl

theorem AtBoundary.of_append {a b : List Char} (h : AtBoundary (a ++ b)) :
    AtBoundary a := by
  cases a with
  | nil => exact nofun
  | cons c a => exact h

/-- The first word of a text is cut off at one place only. -/
theorem WordForm.unique {src' text' rest' : List Char}
    (h : WordForm src text) (h' : WordForm src' text')
    (hb : AtBoundary rest) (hb' : AtBoundary rest')
    (heq : src ++ rest = src' ++ rest') :
    src = src' ∧ text = text' ∧ rest = rest' := by
  rcases List.append_eq_append_iff.mp heq with
    ⟨more, rfl, rfl⟩ | ⟨more, rfl, rfl⟩
  · obtain rfl := h.not_longer h' hb.of_append
    rw [List.append_nil] at h' ⊢
    exact ⟨rfl, h.text_unique h', rfl⟩
  · obtain rfl := h'.not_longer h hb'.of_append
    rw [List.append_nil] at h ⊢
    exact ⟨rfl, h.text_unique h', rfl⟩

/-- A line is made up of words in one way only. -/
theorem Layout.unique (h : Layout e cs ws) (h' : Layout e' cs ws') :
    e = e' ∧ ws = ws' := by
  induction h generalizing ws' with
  | nil => exact ⟨h'.by_start.1.symm, h'.by_start.2.symm⟩
  | comment => exact ⟨h'.by_start.1.symm, h'.by_start.2.symm⟩
  | separator hc _ ih =>
      have begins := h'.by_start
      rw [Start.of_separator hc] at begins
      exact ih begins
  | lineFeed _ ih => exact ih h'.by_start
  | @word e w rest ws hw hb _ ih =>
      have begins := h'.by_start
      rw [hw.start_append] at begins
      obtain ⟨w', rest', more, heq, hw', hb', rfl, hl⟩ := begins
      obtain ⟨hsource, hchars, rfl⟩ := hw.unique hw' hb hb' heq
      obtain ⟨rfl, rfl⟩ := ih hl
      exact ⟨rfl, by rw [Spelling.ext hsource hchars]⟩

end LineShell
