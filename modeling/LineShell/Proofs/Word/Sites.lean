import LineShell.Proofs.Word.Layout

/-! # Sites — where a position of a line stands

    What a character does depends on where it stands: in the open, in a
    comment, between quotes, or behind a backslash that has nothing to
    escape yet.  `StandsIn site cs` says it by the grammar, for the
    position behind the text `cs`: behind whole words and separators a
    position stands in the open, and the other sites begin there.  Every
    position stands in exactly one site, and the mode of the reader tells
    in which (`standsIn_iff`).

    So a vanishing pair may be written wherever a position does not stand
    between single quotes or behind a backslash (`read_continued`), and a
    separator in the open cuts a line into two that are split each on its
    own (`splitWords_local`). -/

namespace LineShell

open Mode

/-! ## Sites -/

/-- Where a position stands. -/
inductive Site where
  /-- Outside quotes and comments. -/
  | plain
  | comment
  | single
  | double
  /-- Directly behind a backslash that nothing escapes. -/
  | backslash
  deriving DecidableEq, Repr

/-- Where the position behind a text stands. -/
inductive StandsIn : Site → List Char → Prop where
  | plain {cs : List Char} {ws : List Spelling} :
      Layout .clear cs ws → StandsIn .plain cs
  | comment {cs : List Char} {ws : List Spelling} :
      Layout .comment cs ws → StandsIn .comment cs
  | single {before q : List Char} :
      StandsIn .plain before → '\'' ∉ q →
      StandsIn .single (before ++ '\'' :: q)
  | double {before src text : List Char} :
      StandsIn .plain before → DoubleRun src text →
      StandsIn .double (before ++ '"' :: src)
  | backslash {before : List Char} :
      StandsIn .plain before → StandsIn .backslash (before ++ ['\\'])
  /-- Between double quotes a backslash may have something to escape. -/
  | doubleBackslash {before : List Char} :
      StandsIn .double before → StandsIn .backslash (before ++ ['\\'])

/-- Where the reader stands, as far as the characters it is to meet
    matter. -/
def Mode.site : Mode → Site
  | gap => .plain
  | comment => .comment
  | word _ => .plain
  | escape _ => .backslash
  | single _ => .single
  | double _ => .double
  | doubleEscape _ => .backslash

variable {e : LineEnd} {cs a b : List Char} {ws : List Spelling}
variable {place : Site} {m : Mode} {c : Char} {p : LineProblem}

theorem advance_append_fst (m : Mode) (a b : List Char) :
    (m.advance (a ++ b)).1 = ((m.advance a).1.advance b).1 := by
  rw [advance_append]

theorem Mode.Reads.fst {m' : Mode} (h : m.Reads cs m') :
    (m.advance cs).1 = m' := by
  rw [h]

/-- Where the end of a line stands. -/
def LineEnd.site : LineEnd → Site
  | .clear => .plain
  | .comment => .comment

theorem Layout.site (h : Layout e cs ws) :
    (gap.advance cs).1.site = e.site := by
  induction h with
  | nil => rfl
  | @comment rest =>
      have starts : gap.Reads ('#' :: rest) Mode.comment :=
        .cons rfl (reads_comment rest)
      rw [starts.fst]
      rfl
  | separator hc _ ih =>
      rw [advance_cons, next_gap_separator hc]
      exact ih
  | lineFeed _ ih => exact ih
  | @word e w rest ws hw hb _ ih =>
      obtain ⟨d, hr, -⟩ := hw.reads
      rw [advance_append_fst, hr.fst]
      cases rest with
      | nil => exact ih
      | cons c rest =>
          -- the separator leads to a gap, from the word as from a gap
          have sep : Separates c := hb c rfl
          rw [advance_cons, next_gap_separator sep] at ih
          rw [advance_cons, next_word_separator sep]
          exact ih

/-! ### The mode tells the site -/

/-- In the open a quote opens a run, in the word there or in a new one. -/
theorem next_quote (h : m.site = .plain) :
    ∃ d, (m.next '\'').1 = single d ∧ (m.next '"').1 = double d := by
  cases m with
  | gap => exact ⟨_, rfl, rfl⟩
  | word d => exact ⟨_, rfl, rfl⟩
  | _ => cases h

theorem next_backslash (h : m.site = .plain ∨ m.site = .double) :
    (m.next '\\').1.site = .backslash := by
  cases m with
  | gap => rfl
  | word d => rfl
  | double d => rfl
  | _ => rcases h with h | h <;> cases h

theorem StandsIn.site (h : StandsIn place cs) :
    (gap.advance cs).1.site = place := by
  induction h with
  | plain hl => exact hl.site
  | comment hl => exact hl.site
  | single _ hq ih =>
      obtain ⟨d, hd, -⟩ := next_quote ih
      rw [advance_append_fst, advance_cons, hd, (reads_single hq d).fst]
      rfl
  | double _ hr ih =>
      obtain ⟨d, -, hd⟩ := next_quote ih
      rw [advance_append_fst, advance_cons, hd, (hr.reads d).fst]
      rfl
  | backslash _ ih =>
      rw [advance_append_fst]
      exact next_backslash (.inl ih)
  | doubleBackslash _ ih =>
      rw [advance_append_fst]
      exact next_backslash (.inr ih)

/-- Before what is cut off stand whole words and separators. -/
theorem Unreadable.cut (h : Unreadable p cs) :
    ∃ before ws rest, cs = before ++ rest ∧ Layout .clear before ws ∧
      CutOff p rest := by
  induction h with
  | separator hc _ ih =>
      obtain ⟨before, ws, rest, rfl, hl, hcut⟩ := ih
      exact ⟨_, ws, rest, rfl, .separator hc hl, hcut⟩
  | lineFeed _ ih =>
      obtain ⟨before, ws, rest, rfl, hl, hcut⟩ := ih
      exact ⟨_, ws, rest, rfl, .lineFeed hl, hcut⟩
  | @word src text _ hw hb _ ih =>
      obtain ⟨before, ws, rest, rfl, hl, hcut⟩ := ih
      refine ⟨src ++ before, ⟨src, text⟩ :: ws, rest,
        (List.append_assoc ..).symm, ?_, hcut⟩
      exact .word (w := ⟨src, text⟩) hw hb.of_append hl
  | start hcut => exact ⟨[], [], _, rfl, .nil, hcut⟩
  | @inside src text rest hw hcut =>
      have boundary : AtBoundary [] := nofun
      have hl := Layout.word (w := ⟨src, text⟩) hw boundary .nil
      rw [List.append_nil] at hl
      exact ⟨src, _, rest, rfl, hl, hcut⟩

theorem standsIn_somewhere (cs : List Char) : ∃ place, StandsIn place cs := by
  cases hwords : gap.words cs with
  | ok words =>
      obtain ⟨e, ws, hl, -⟩ := layout_of_words hwords
      cases e with
      | clear => exact ⟨_, .plain hl⟩
      | comment => exact ⟨_, .comment hl⟩
  | error p =>
      obtain ⟨before, ws, rest, rfl, hl, hcut⟩ :=
        (unreadable_of_words hwords).cut
      cases hcut with
      | single hq => exact ⟨_, .single (.plain hl) hq⟩
      | double hr => exact ⟨_, .double (.plain hl) hr⟩
      | doubleBackslash hr =>
          have behind := StandsIn.doubleBackslash (.double (.plain hl) hr)
          rw [List.append_assoc, List.cons_append] at behind
          exact ⟨_, behind⟩
      | backslash => exact ⟨_, .backslash (.plain hl)⟩

/-- A position stands where the mode of the reader says, and nowhere
    else. -/
theorem standsIn_iff :
    StandsIn place cs ↔ (gap.advance cs).1.site = place := by
  constructor
  · exact StandsIn.site
  · rintro rfl
    obtain ⟨place, h⟩ := standsIn_somewhere cs
    rw [h.site]
    exact h

/-! ## Vanishing pairs -/

theorem words_single_open (h : '\'' ∉ b) (d : Draft) :
    (single d).words b = .error .openSingleQuote := by
  rw [← List.append_nil b, (reads_single h d).words_append]
  rfl

/-- A vanishing pair changes nothing, unless it is escaped or quoted. -/
theorem words_pair (hbackslash : m.site ≠ .backslash)
    (hsingle : m.site = .single → '\'' ∉ b) :
    m.words ('\\' :: '\n' :: b) = m.words b := by
  have vanishes (h : m = gap ∨ ∃ d, m = word d ∨ m = double d) :
      m.words ('\\' :: '\n' :: b) = m.words b := by
    obtain ⟨second, first⟩ := m.next_next_lineFeed h
    rw [words_cons_of_none (Prod.ext rfl first), words_cons_of_none second]
  cases m with
  | gap => exact vanishes (.inl rfl)
  | comment => rw [words_comment, words_comment]
  | word d => exact vanishes (.inr ⟨d, .inl rfl⟩)
  | double d => exact vanishes (.inr ⟨d, .inr rfl⟩)
  | single d =>
      -- the quote is not closed, with the pair or without it
      have hopen := hsingle rfl
      rw [words_single_open hopen, words_single_open]
      simpa using hopen
  | escape d => exact absurd rfl hbackslash
  | doubleEscape d => exact absurd rfl hbackslash

/-- A vanishing pair can be written into a line at every position that does
    not stand behind a backslash nor between a single quote and the one
    that closes it: the line is read as the same, or fails for the same
    reason. -/
theorem read_continued (a b : String)
    (hbackslash : ¬ StandsIn .backslash a.toList)
    (hsingle : StandsIn .single a.toList → '\'' ∉ b.toList) :
    (Line.read (a ++ "\\\n" ++ b)).mapError LineError.problem =
      (Line.read (a ++ b)).mapError LineError.problem := by
  rw [standsIn_iff] at hbackslash hsingle
  have same :
      tokenize (a ++ "\\\n" ++ b).toList = tokenize (a ++ b).toList := by
    have pair : "\\\n".toList = ['\\', '\n'] := by decide
    rw [String.toList_append, String.toList_append, String.toList_append,
      pair, List.append_assoc]
    show gap.words (a.toList ++ '\\' :: '\n' :: b.toList) =
      gap.words (a.toList ++ b.toList)
    rw [words_append, words_append, words_pair hbackslash hsingle]
  rw [Line.read, Line.read, same]
  cases tokenize (a ++ b).toList <;> rfl

/-- Between double quotes a pair vanishes as it does in the open, whatever
    single quotes stand around it. -/
theorem read_continued_quoted :
    ¬ StandsIn .backslash "A=\"'x".toList ∧
      (StandsIn .single "A=\"'x".toList → '\'' ∉ "y'\" z".toList) ∧
      (Line.read ("A=\"'x" ++ "\\\n" ++ "y'\" z")).mapError
          LineError.problem =
        (Line.read ("A=\"'x" ++ "y'\" z")).mapError LineError.problem := by
  have hbackslash : ¬ StandsIn .backslash "A=\"'x".toList := by
    rw [standsIn_iff]
    decide
  have hsingle : StandsIn .single "A=\"'x".toList →
      '\'' ∉ "y'\" z".toList := by
    rw [standsIn_iff]
    decide
  exact ⟨hbackslash, hsingle, read_continued _ _ hbackslash hsingle⟩

/-! ## Separators -/

theorem reads_separators (h : ∀ c ∈ cs, Separates c) :
    gap.Reads cs gap := by
  induction cs with
  | nil => exact .nil gap
  | cons c cs ih =>
      have rest := ih fun x hx => h x (List.mem_cons_of_mem c hx)
      exact .cons (next_gap_separator (h c List.mem_cons_self)) rest

/-- Where a position stands in the open, a separator ends what is there, and
    what comes behind it is read from a gap. -/
theorem words_separator (h : m.site = .plain) (hc : Separates c)
    {words : List Word} (hwords : m.words [] = .ok words) :
    m.words (c :: b) = (gap.words b).map (words ++ ·) := by
  cases m with
  | gap =>
      cases hwords
      rw [words_cons_of_none (next_gap_separator hc)]
      cases gap.words b <;> rfl
  | word d =>
      cases hwords
      rw [words_cons_of_some (next_word_separator hc)]
      rfl
  | _ => cases h

/-- Behind a line that is clear of comments, separators lead to a gap, and
    what comes then is read on its own. -/
theorem Layout.words_append (h : Layout .clear a ws)
    (hcs : ∀ c ∈ cs, Separates c) (hne : cs ≠ []) (b : List Char) :
    gap.words (a ++ cs ++ b) =
      (gap.words b).map (ws.map Spelling.word ++ ·) := by
  obtain ⟨c, cs, rfl⟩ := List.exists_cons_of_ne_nil hne
  have hrest := (reads_separators fun x hx =>
    hcs x (List.mem_cons_of_mem c hx)).words_append b
  have hwords := h.words
  rw [← List.append_nil a, Mode.words_append] at hwords
  rw [List.append_assoc, Mode.words_append, List.cons_append]
  cases hlast : (gap.advance a).1.words [] with
  | error p =>
      rw [hlast] at hwords
      cases hwords
  | ok last =>
      rw [hlast] at hwords
      rw [words_separator h.site (hcs c List.mem_cons_self) hlast, hrest,
        ← Except.ok.inj hwords]
      cases gap.words b with
      | error p => rfl
      | ok words => simp [Except.map]

theorem eq_comment_of_site (h : m.site = .comment) : m = .comment := by
  cases m with
  | comment => rfl
  | _ => cases h

/-- Behind a comment nothing is read. -/
theorem Layout.words_append_comment (h : Layout .comment a ws)
    (b : List Char) : gap.words (a ++ b) = .ok (ws.map Spelling.word) := by
  have hcomment := eq_comment_of_site h.site
  have hwords := h.words
  rw [← List.append_nil a, Mode.words_append, hcomment, words_comment]
    at hwords
  rw [Mode.words_append, hcomment, words_comment, hwords]

/-- Where a text does not end in a comment, separators behind it lead to a
    gap. -/
theorem tokenize_append {words : List Word} (ha : tokenize a = .ok words)
    (hclear : ¬ StandsIn .comment a) (hcs : ∀ c ∈ cs, Separates c)
    (hne : cs ≠ []) (b : List Char) :
    tokenize (a ++ cs ++ b) = (tokenize b).map (words ++ ·) := by
  obtain ⟨e, spelled, hl, rfl⟩ := layout_of_words ha
  cases e with
  | comment => exact absurd (.comment hl) hclear
  | clear => exact hl.words_append hcs hne b

/-- Words are local.  If a text meets no comment, then behind it and a
    separator, or more of them, a line is split as if it stood alone: its
    words come after those of the text, or it fails for its own reason.
    If the text meets a comment, then nothing behind it counts. -/
theorem splitWords_local (a s b : String) (hne : s ≠ "")
    (hs : ∀ c ∈ s.toList, Separates c) :
    (∀ ws, splitWords a = .ok ws → ¬ StandsIn .comment a.toList →
      (∀ us, splitWords b = .ok us →
        splitWords (a ++ s ++ b) = .ok (ws ++ us)) ∧
      ∀ e, splitWords b = .error e →
        splitWords (a ++ s ++ b) = .error ⟨e.problem, a ++ s ++ b⟩) ∧
    (StandsIn .comment a.toList →
      ∃ ws, splitWords a = .ok ws ∧ splitWords (a ++ s ++ b) = .ok ws) := by
  have hchars : s.toList ≠ [] := mt String.toList_eq_nil_iff.mp hne
  have hline : (a ++ s ++ b).toList = a.toList ++ s.toList ++ b.toList := by
    rw [String.toList_append, String.toList_append]
  constructor
  · intro ws hws hclear
    cases ha : tokenize a.toList with
    | error p =>
        rw [splitWords_of_error ha] at hws
        cases hws
    | ok words =>
        rw [splitWords_of_ok ha] at hws
        cases hws
        have whole := tokenize_append ha hclear hs hchars b.toList
        rw [← hline] at whole
        cases hb : tokenize b.toList with
        | error p =>
            rw [hb] at whole
            rw [splitWords_of_error hb, splitWords_of_error whole]
            refine ⟨nofun, ?_⟩
            intro e he
            rw [← Except.error.inj he]
        | ok more =>
            rw [hb] at whole
            rw [splitWords_of_ok hb, splitWords_of_ok whole,
              List.map_append]
            refine ⟨?_, nofun⟩
            intro us hus
            rw [← Except.ok.inj hus]
  · intro hcomment
    cases hcomment with
    | comment hl =>
        have whole := hl.words_append_comment (s.toList ++ b.toList)
        rw [← List.append_assoc, ← hline] at whole
        exact ⟨_, splitWords_of_ok hl.words, splitWords_of_ok whole⟩

/-- An escaped backslash before a line feed is no vanishing pair: the line
    feed is a separator. -/
theorem splitWords_local_escaped :
    "\n" ≠ "" ∧ (∀ c ∈ "\n".toList, Separates c) ∧
      splitWords "A=1 x\\\\" = .ok ["A=1", "x\\"] ∧
      ¬ StandsIn .comment "A=1 x\\\\".toList ∧
      splitWords "# y" = .ok [] ∧
      splitWords ("A=1 x\\\\" ++ "\n" ++ "# y") = .ok ["A=1", "x\\"] := by
  have hs : ∀ c ∈ "\n".toList, Separates c := by
    intro c hc
    rw [List.mem_singleton.mp hc]
    decide
  have ha : splitWords "A=1 x\\\\" = .ok ["A=1", "x\\"] := by rfl
  have hclear : ¬ StandsIn .comment "A=1 x\\\\".toList := by
    rw [standsIn_iff]
    decide
  have hb : splitWords "# y" = .ok [] := by rfl
  have hne : "\n" ≠ "" := by decide
  have whole := (splitWords_local _ "\n" "# y" hne hs).1 _ ha hclear
  exact ⟨hne, hs, ha, hclear, hb, whole.1 [] hb⟩

end LineShell
