import LineShell.Line

/-! # Reading a line — what runs of characters do to the reader of words

    The reader of words goes from mode to mode, one character at a time.
    Here stand the laws by which its way through a text is put together
    from its ways through the parts:

    * the characters by what they do outside quotes and between double
      quotes (`Separates`, `Ordinary`, `Escapable`);
    * the characters of a word that stand bare (`bareRun`), and how many of
      them a word in progress will have counted in the end
      (`Draft.counts`);
    * `Mode.Reads m cs m'`: reading `cs` leads from `m` to `m'` and ends no
      word, with its laws for one character and for texts in a row;
    * how the words of a text follow from the words of its rest. -/

namespace LineShell

/-! ## Characters by what they do -/

/-- A character that separates words. -/
def Separates (c : Char) : Prop :=
  c ∈ [' ', '\t', '\r', '\n']

instance : DecidablePred Separates :=
  fun c => inferInstanceAs (Decidable (c ∈ [' ', '\t', '\r', '\n']))

/-- A character that a backslash escapes between double quotes: a
    backslash, a double quote, a dollar sign or a backtick. -/
def Escapable (c : Char) : Prop :=
  c ∈ ['\\', '"', '$', Char.ofNat 0x60]

/-- A character that stands for itself outside quotes. -/
def Ordinary (c : Char) : Prop :=
  ¬ Separates c ∧ c ≠ '\\' ∧ c ≠ '\'' ∧ c ≠ '"'

instance : DecidablePred Ordinary := fun c =>
  inferInstanceAs (Decidable (¬ Separates c ∧ _))

theorem isSeparator_iff {c : Char} : isSeparator c = true ↔ Separates c := by
  simp [isSeparator, Separates, or_assoc]

theorem isSeparator_eq_false {c : Char} (h : ¬ Separates c) :
    isSeparator c = false := by
  rw [← Bool.not_eq_true, isSeparator_iff]
  exact h

theorem isDoubleEscaped_iff {c : Char} :
    isDoubleEscaped c = true ↔ Escapable c := by
  have tick : c.toNat = 0x60 ↔ c = Char.ofNat 0x60 := by
    rw [← Char.toNat_inj]
    rfl
  simp [isDoubleEscaped, Escapable, or_assoc, tick]

theorem isDoubleEscaped_eq_false {c : Char} (h : ¬ Escapable c) :
    isDoubleEscaped c = false := by
  rw [← Bool.not_eq_true, isDoubleEscaped_iff]
  exact h

/-! ## Bare characters -/

variable {c : Char} {src rest : List Char}

/-- A spelling without its vanishing pairs. -/
def withoutPairs : List Char → List Char
  | '\\' :: '\n' :: rest => withoutPairs rest
  | c :: rest => c :: withoutPairs rest
  | [] => []

/-- A character by which a word ceases to be bare: a backslash or a
    quote. -/
def isMark (c : Char) : Bool :=
  c == '\\' || c == '\'' || c == '"'

/-- The characters of a spelling before its first quote or escape. -/
def bareRun (source : List Char) : List Char :=
  (withoutPairs source).takeWhile fun c => !isMark c

theorem withoutPairs_cons (h : c ≠ '\\') :
    withoutPairs (c :: rest) = c :: withoutPairs rest := by
  rw [withoutPairs]
  rintro _ rfl
  exact absurd rfl h

theorem withoutPairs_escape (h : c ≠ '\n') :
    withoutPairs ('\\' :: c :: rest) = '\\' :: withoutPairs (c :: rest) := by
  rw [withoutPairs]
  rintro _ _ hc
  exact h (List.cons.inj hc).1

theorem isMark_of_ordinary (h : Ordinary c) : isMark c = false := by
  obtain ⟨-, h1, h2, h3⟩ := h
  simp [isMark, h1, h2, h3]

theorem bareRun_ordinary (h : Ordinary c) :
    bareRun (c :: rest) = c :: bareRun rest := by
  rw [bareRun, withoutPairs_cons h.2.1]
  exact List.takeWhile_cons_of_pos (by rw [isMark_of_ordinary h]; rfl)

theorem bareRun_escape (h : c ≠ '\n') : bareRun ('\\' :: c :: rest) = [] := by
  rw [bareRun, withoutPairs_escape h]
  rfl

theorem bareRun_quote (h : c = '\'' ∨ c = '"') :
    bareRun (c :: rest) = [] := by
  rcases h with rfl | rfl <;> rfl

/-! ## Words in progress -/

namespace Draft

/-- How many bare characters a word in progress will have, once the rest of
    its spelling is read. -/
def counts (d : Draft) (rest : List Char) : Nat :=
  if d.bare then d.plain + (bareRun rest).length else d.plain

theorem counts_addPlain (d : Draft) (h : Ordinary c) :
    (d.addPlain c).counts rest = d.counts (c :: rest) := by
  rw [counts, counts, bareRun_ordinary h, List.length_cons]
  simp only [addPlain]
  split <;> omega

/-- Once a word is not bare, what follows adds nothing. -/
theorem counts_marked {d d' : Draft} (hplain : d'.plain = d.plain)
    (hbare : d'.bare = false) (h : bareRun src = []) :
    d'.counts rest = d.counts src := by
  rw [counts, counts, h, hbare, hplain]
  simp

theorem counts_nil (d : Draft) : d.counts [] = d.plain := by
  rw [counts]
  split <;> rfl

theorem counts_fresh : fresh.counts src = (bareRun src).length :=
  Nat.zero_add _

end Draft

/-- A quoted character and then a text are a text. -/
theorem Draft.addQuoted_append (d : Draft) (c : Char) (text : List Char) :
    { d.addQuoted c with chars := (d.addQuoted c).chars ++ text } =
      { d with chars := d.chars ++ c :: text } := by
  simp [addQuoted]

namespace Mode

variable {m m' m'' : Mode} {d : Draft} {c : Char}

/-! ## One character -/

theorem next_gap_separator (h : Separates c) : gap.next c = (gap, none) := by
  rw [next, if_pos (isSeparator_iff.mpr h)]

theorem next_word_separator (h : Separates c) :
    (word d).next c = (gap, some d.word) := by
  rw [next, if_pos (isSeparator_iff.mpr h)]

theorem next_word_ends_none (h : ¬ Separates c) :
    ((word d).next c).2 = none := by
  simp only [next, isSeparator_eq_false h, Bool.false_eq_true, if_false]
  split <;> rfl

theorem inWord_ordinary (h : Ordinary c) :
    inWord d c = word (d.addPlain c) := by
  obtain ⟨-, -, h1, h2⟩ := h
  simp [inWord, h1, h2]

theorem next_word_ordinary (h : Ordinary c) :
    (word d).next c = (word (d.addPlain c), none) := by
  rw [next, isSeparator_eq_false h.1, inWord_ordinary h]
  simp [h.2.1]

/-- A number sign starts a comment, but only where no word is in
    progress. -/
theorem next_gap_ordinary (h : Ordinary c) (hash : c ≠ '#') :
    gap.next c = (word (Draft.fresh.addPlain c), none) := by
  rw [next, isSeparator_eq_false h.1, inWord_ordinary h]
  simp [h.2.1, hash]

theorem next_single_other (h : c ≠ '\'') :
    (single d).next c = (single (d.addQuoted c), none) := by
  simp [next, h]

theorem next_double_other (h1 : c ≠ '"') (h2 : c ≠ '\\') :
    (double d).next c = (double (d.addQuoted c), none) := by
  simp [next, h1, h2]

/-- After a backslash outside quotes any character but a line feed is taken
    as it is; a word begins with it if there is none. -/
theorem next_escape_none (h : c ≠ '\n') :
    (escape none).next c =
      (word (Draft.fresh.quoted.addQuoted c), none) := by
  simp [next, h]

theorem next_escape_some (h : c ≠ '\n') :
    (escape (some d)).next c = (word (d.quoted.addQuoted c), none) := by
  simp [next, h]

/-- Between double quotes a backslash goes if there is something for it to
    escape, and is kept otherwise. -/
theorem next_doubleEscape_escapable (h : Escapable c) :
    (doubleEscape d).next c = (double (d.addQuoted c), none) := by
  rw [next, if_pos (isDoubleEscaped_iff.mpr h)]

theorem next_doubleEscape_other (h : ¬ Escapable c) (hn : c ≠ '\n') :
    (doubleEscape d).next c =
      (double ((d.addQuoted '\\').addQuoted c), none) := by
  rw [next, isDoubleEscaped_eq_false h]
  simp [hn]

/-! ## Runs of characters -/

/-- Reading the characters leads from one mode to another and ends no
    word. -/
def Reads (m : Mode) (cs : List Char) (m' : Mode) : Prop :=
  m.advance cs = (m', [])

theorem Reads.nil (m : Mode) : m.Reads [] m := rfl

theorem Reads.cons {cs : List Char} (first : m.next c = (m', none))
    (rest : m'.Reads cs m'') : m.Reads (c :: cs) m'' := by
  rw [Reads, advance_cons, first, rest]
  rfl

theorem Reads.append {a b : List Char} (first : m.Reads a m')
    (second : m'.Reads b m'') : m.Reads (a ++ b) m'' := by
  rw [Reads, advance_append, first, second]
  rfl

theorem Reads.single (first : m.next c = (m', none)) : m.Reads [c] m' :=
  .cons first (.nil m')

/-- Between single quotes every character but the quote is taken. -/
theorem reads_single {q : List Char} (h : '\'' ∉ q) (d : Draft) :
    (single d).Reads q (single { d with chars := d.chars ++ q }) := by
  induction q generalizing d with
  | nil => simp [Reads]
  | cons c q ih =>
      rw [List.mem_cons, not_or] at h
      have rest := ih h.2 (d.addQuoted c)
      rw [Draft.addQuoted_append] at rest
      exact .cons (next_single_other (Ne.symm h.1)) rest

/-! ## The words of a text -/

/-- At the end of a line the mode alone decides. -/
theorem words_nil (m : Mode) : m.words [] = m.close.map Option.toList := rfl

/-- The words of a text: those that its first character ends, and those
    of its rest. -/
theorem words_cons (m : Mode) (c : Char) (cs : List Char) :
    m.words (c :: cs) =
      ((m.next c).1.words cs).map ((m.next c).2.toList ++ ·) := by
  simp only [words, advance_cons]
  cases ((m.next c).1.advance cs).1.close with
  | error p => rfl
  | ok last => simp [Except.map]

theorem words_cons_of_none {cs : List Char} (h : m.next c = (m', none)) :
    m.words (c :: cs) = m'.words cs := by
  rw [words_cons, h]
  cases m'.words cs <;> rfl

theorem words_cons_of_some {w : Word} {cs : List Char}
    (h : m.next c = (m', some w)) :
    m.words (c :: cs) = (m'.words cs).map (w :: ·) := by
  rw [words_cons, h]
  rfl

/-- The words of two texts in a row: those that end in the first, and those
    of the second from where the first leads. -/
theorem words_append (m : Mode) (a b : List Char) :
    m.words (a ++ b) =
      ((m.advance a).1.words b).map ((m.advance a).2 ++ ·) := by
  simp only [words, advance_append]
  cases ((m.advance a).1.advance b).1.close with
  | error p => rfl
  | ok last => simp [Except.map]

/-- A part that ends no word can be left out, once it is known where it
    leads. -/
theorem Reads.words_append {a : List Char} (h : m.Reads a m')
    (b : List Char) : m.words (a ++ b) = m'.words b := by
  rw [Mode.words_append, h]
  cases m'.words b <;> rfl

/-- A comment goes on to the end of the line. -/
theorem reads_comment (cs : List Char) : comment.Reads cs comment := by
  induction cs with
  | nil => exact .nil comment
  | cons c cs ih => exact .cons rfl ih

theorem words_comment (cs : List Char) : comment.words cs = .ok [] := by
  rw [words, reads_comment cs]
  rfl

/-- A word ends at the end of the line and before a separator; what comes
    after it is read from a gap. -/
theorem words_word_of_head {rest : List Char}
    (h : ∀ c ∈ rest.head?, Separates c) :
    (word d).words rest = (gap.words rest).map (d.word :: ·) := by
  cases rest with
  | nil => rfl
  | cons c cs =>
      have sep : Separates c := h c rfl
      rw [words_cons_of_some (next_word_separator sep),
        words_cons_of_none (next_gap_separator sep)]

end Mode

end LineShell
