import LineShell.Proofs.Word.Reading
import Mathlib.Data.List.Forall2

/-! # Quoting — a written form for every line

    Every overlay, command and list of arguments can be written as a line
    that is read back as it was meant.  A text is written in single quotes;
    a single quote in it is written outside of them, after a backslash.  An
    assignment is a bare name, an equals sign and a quoted value.

    The reader takes a quoted text for a word without bare characters
    (`reads_quoted`), so that no such word counts as an assignment, and an
    assignment for a word whose bare characters are the name and the equals
    sign (`reads_assignment`).  A whole line is these, joined by blanks. -/

namespace LineShell

open LineShell.Text

/-! ## Writing -/

/-- How one character is written between single quotes. -/
def quotedChar (c : Char) : List Char :=
  if c = '\'' then ['\'', '\\', '\'', '\''] else [c]

/-- A text in single quotes. -/
def singleQuoted (text : String) : String :=
  String.ofList ('\'' :: (text.toList.flatMap quotedChar ++ ['\'']))

/-- An assignment of a name. -/
def assignmentText (name value : String) : String :=
  name ++ "=" ++ singleQuoted value

/-- The line of some assignments and some words. -/
def written (pairs : List (String × String)) (words : List String) :
    String :=
  " ".intercalate
    ((pairs.map fun pair => assignmentText pair.1 pair.2) ++
      words.map singleQuoted)

/-- A name: a letter or an underscore, and then letters, digits and
    underscores. -/
def IsName (name : String) : Prop :=
  ∃ first rest, name.toList = first :: rest ∧ isNameStart first = true ∧
    ∀ c ∈ rest, isNameChar c = true

/-! ## Reading what was written -/

theorem ordinary_of_isNameChar {c : Char} (h : isNameChar c = true) :
    Ordinary c ∧ c ≠ '#' := by
  refine ⟨⟨?_, ?_, ?_, ?_⟩, ?_⟩
  · intro hs
    simp only [Separates, List.mem_cons, List.not_mem_nil, or_false] at hs
    rcases hs with rfl | rfl | rfl | rfl <;> exact absurd h (by decide)
  all_goals
    rintro rfl
    exact absurd h (by decide)

theorem isNameChar_of_isNameStart {c : Char} (h : isNameStart c = true) :
    isNameChar c = true := by
  rw [isNameChar, h, Bool.true_or]

/-- All characters of a name are name characters, and there is a first
    one. -/
theorem IsName.all {name : String} (h : IsName name) :
    ∀ c ∈ name.toList, isNameChar c = true := by
  obtain ⟨first, rest, hn, hs, hr⟩ := h
  rw [hn]
  intro c hc
  rcases List.mem_cons.mp hc with rfl | hc
  · exact isNameChar_of_isNameStart hs
  · exact hr c hc

namespace Mode

/-- Once a word is not bare, the written form of a text adds the text.  A
    single quote closes the run, comes in by an escape, and opens the next
    one. -/
theorem reads_flatMap_quotedChar (cs done : List Char) (n : Nat) :
    (single ⟨done, n, false⟩).Reads (cs.flatMap quotedChar)
      (single ⟨done ++ cs, n, false⟩) := by
  induction cs generalizing done with
  | nil => simp [Reads]
  | cons c cs ih =>
      have rest := ih (done ++ [c])
      rw [List.append_assoc] at rest
      rw [List.flatMap_cons]
      refine Reads.append ?_ rest
      by_cases hc : c = '\''
      · subst hc
        exact .cons rfl (.cons rfl (.cons rfl (.single rfl)))
      · rw [quotedChar, if_neg hc]
        exact .single (next_single_other hc)

/-- After an opening quote a written text is read to its end. -/
theorem reads_quoted_tail (text : String) (done : List Char) (n : Nat) :
    (single ⟨done, n, false⟩).Reads
      (text.toList.flatMap quotedChar ++ ['\''])
      (word ⟨done ++ text.toList, n, false⟩) :=
  (reads_flatMap_quotedChar text.toList done n).append (.single rfl)

/-- A quoted text is a word without bare characters. -/
theorem reads_quoted (text : String) :
    gap.Reads (singleQuoted text).toList (word ⟨text.toList, 0, false⟩) := by
  rw [singleQuoted, String.toList_ofList]
  exact .cons rfl (reads_quoted_tail text [] 0)

/-- Ordinary characters stand bare. -/
theorem reads_ordinary {cs : List Char} (h : ∀ c ∈ cs, Ordinary c)
    (done : List Char) (n : Nat) :
    (word ⟨done, n, true⟩).Reads cs
      (word ⟨done ++ cs, n + cs.length, true⟩) := by
  induction cs generalizing done n with
  | nil => simp [Reads]
  | cons c cs ih =>
      have rest := ih (fun x hx => h x (List.mem_cons_of_mem c hx))
        (done ++ [c]) (n + 1)
      rw [List.append_assoc, Nat.add_assoc, Nat.add_comm 1] at rest
      exact .cons (next_word_ordinary (h c List.mem_cons_self)) rest

/-- In an assignment the name and the equals sign stand bare. -/
theorem reads_assignment {name : String} (h : IsName name)
    (value : String) :
    gap.Reads (assignmentText name value).toList
      (word ⟨name.toList ++ '=' :: value.toList, name.toList.length + 1,
        false⟩) := by
  have ordinary : ∀ c ∈ name.toList, Ordinary c := fun c hc =>
    (ordinary_of_isNameChar (h.all c hc)).1
  obtain ⟨first, rest, hn, hs, -⟩ := h
  rw [hn] at ordinary
  have hf := ordinary_of_isNameChar (isNameChar_of_isNameStart hs)
  have start : gap.next first = (word ⟨[first], 1, true⟩, none) :=
    next_gap_ordinary hf.1 hf.2
  -- the name and the equals sign are bare, and the quote ends that
  have bare : (word ⟨[first], 1, true⟩).Reads (rest ++ ['='])
      (word ⟨[first] ++ (rest ++ ['=']), 1 + (rest ++ ['=']).length,
        true⟩) := by
    refine reads_ordinary ?_ [first] 1
    intro c hc
    rcases List.mem_append.mp hc with hc | hc
    · exact ordinary c (List.mem_cons_of_mem first hc)
    · rw [List.mem_singleton.mp hc]
      simp [Ordinary, Separates]
  have opens : (word ⟨[first] ++ (rest ++ ['=']), 1 + (rest ++ ['=']).length,
      true⟩).next '\'' = (single ⟨first :: (rest ++ ['=']),
        1 + (rest ++ ['=']).length, false⟩, none) := rfl
  have quoted := reads_quoted_tail value (first :: (rest ++ ['=']))
    (1 + (rest ++ ['=']).length)
  have whole := Reads.cons start (bare.append (.cons opens quoted))
  rw [assignmentText, singleQuoted, String.toList_append,
    String.toList_append, String.toList_ofList, hn]
  simpa [Nat.add_comm] using whole

/-- Texts that each make one word, with a space between them, make these
    words. -/
theorem words_intercalate (parts : List (List Char × Draft))
    (h : ∀ part ∈ parts, gap.Reads part.1 (word part.2)) :
    gap.words ([' '].intercalate (parts.map Prod.fst)) =
      .ok (parts.map fun part => part.2.word) := by
  induction parts with
  | nil => rfl
  | cons part rest ih =>
      have first := h part List.mem_cons_self
      have later := ih fun x hx => h x (List.mem_cons_of_mem part hx)
      cases rest with
      | nil =>
          rw [List.map_cons, List.map_nil, List.intercalate_singleton,
            ← List.append_nil part.1, first.words_append]
          rfl
      | cons next rest =>
          have space : ∀ c ∈ (' ' :: [' '].intercalate
              ((next :: rest).map Prod.fst)).head?, Separates c := by
            intro c hc
            rw [List.head?_cons, Option.mem_some_iff] at hc
            rw [← hc]
            exact List.mem_cons_self
          -- the space ends the word and is then read once more, from a gap
          rw [List.map_cons, List.map_cons, List.intercalate_cons_cons,
            List.append_assoc, first.words_append, List.singleton_append]
          rw [List.map_cons] at later space
          rw [words_word_of_head space,
            words_cons_of_none (next_gap_separator List.mem_cons_self), later]
          rfl

end Mode

/-! ## Overlay, command and arguments -/

/-- A word of which no character is bare is no assignment. -/
theorem assignment?_of_plain_eq_zero (w : Word) (h : w.plain = 0) :
    w.assignment? = none := by
  rw [Word.assignment?, h]
  split
  · rw [if_neg (by simp)]
  · rfl

/-- Behind a name stands what is no name character any more. -/
theorem IsName.split {name : String} (h : IsName name) (value : List Char) :
    (name.toList ++ '=' :: value).takeWhile isNameChar = name.toList ∧
      (name.toList ++ '=' :: value).dropWhile isNameChar = '=' :: value := by
  constructor
  · rw [List.takeWhile_append_of_pos h.all,
      List.takeWhile_cons_of_neg (by decide), List.append_nil]
  · rw [List.dropWhile_append_of_pos h.all,
      List.dropWhile_cons_of_neg (by decide)]

/-- A word is an assignment just if its text is a name, an equals sign and a
    value, and more of its characters than the name stand bare. -/
theorem Word.assignment?_eq_some_iff {w : Word} {name value : String} :
    w.assignment? = some (name, value) ↔
      IsName name ∧ w.chars = name.toList ++ '=' :: value.toList ∧
        name.toList.length < w.plain := by
  constructor
  · intro h
    rw [Word.assignment?] at h
    split at h
    · rename_i first rest after htake hdrop
      split at h
      · rename_i hcount
        rw [Bool.and_eq_true, decide_eq_true_iff, htake] at hcount
        obtain ⟨hname, hvalue⟩ := Prod.mk.inj (Option.some.inj h)
        rw [htake] at hname
        have hall := List.all_eq_true.mp
          (List.all_takeWhile (p := isNameChar) (l := w.chars))
        rw [htake] at hall
        rw [← hname, ← hvalue, String.toList_ofList, String.toList_ofList]
        refine ⟨⟨first, rest, String.toList_ofList, hcount.1,
          fun c hc => hall c (List.mem_cons_of_mem first hc)⟩, ?_, hcount.2⟩
        rw [← htake, ← hdrop, List.takeWhile_append_dropWhile]
      · cases h
    · cases h
  · rintro ⟨hname, hchars, hcount⟩
    obtain ⟨htake, hdrop⟩ := hname.split value.toList
    obtain ⟨first, rest, hn, hs, -⟩ := hname
    rw [Word.assignment?, hchars, htake, hdrop, hn]
    show (if isNameStart first &&
          decide ((first :: rest).length < w.plain) then
        some (String.ofList (first :: rest), String.ofList value.toList)
      else none) = _
    rw [hn] at hcount
    have both : (isNameStart first &&
        decide ((first :: rest).length < w.plain)) = true := by
      rw [hs, Bool.true_and, decide_eq_true_iff]
      exact hcount
    rw [if_pos both, ← hn, String.ofList_toList, String.ofList_toList]

/-- A name, an equals sign and a value, of which the first two are bare,
    are an assignment. -/
theorem assignment?_of_isName {name : String} (h : IsName name)
    (value : List Char) :
    Word.assignment?
        ⟨name.toList ++ '=' :: value, name.toList.length + 1⟩ =
      some (name, String.ofList value) :=
  Word.assignment?_eq_some_iff.mpr
    ⟨h, by rw [String.toList_ofList], Nat.lt_succ_self _⟩

/-- The word that a quoted text is read as. -/
def quotedWord (text : String) : Word := ⟨text.toList, 0⟩

/-- The word that an assignment is read as. -/
def assignmentWord (name value : String) : Word :=
  ⟨name.toList ++ '=' :: value.toList, name.toList.length + 1⟩

theorem text_quotedWord (text : String) : (quotedWord text).text = text := by
  rw [Word.text, quotedWord, String.ofList_toList]

/-- Assignments at the start are taken into the overlay one after the
    other. -/
theorem ofWordsAfter_append {given : List Word}
    {pairs : List (String × String)}
    (h : List.Forall₂ (fun w pair => w.assignment? = some pair) given pairs)
    (overlay : OrderedMap Value) (rest : List Word) :
    Line.ofWordsAfter overlay (given ++ rest) =
      Line.ofWordsAfter
        (overlay.insertAll (pairs.map fun pair => (pair.1, .text pair.2)))
        rest := by
  induction h generalizing overlay with
  | nil => rfl
  | cons first _ ih =>
      rw [List.cons_append, Line.ofWordsAfter, first]
      exact ih _

theorem ofWordsAfter_assignments (pairs : List (String × String))
    (named : ∀ pair ∈ pairs, IsName pair.1) (overlay : OrderedMap Value)
    (rest : List Word) :
    Line.ofWordsAfter overlay
        ((pairs.map fun pair => assignmentWord pair.1 pair.2) ++ rest) =
      Line.ofWordsAfter
        (overlay.insertAll (pairs.map fun pair => (pair.1, .text pair.2)))
        rest := by
  refine ofWordsAfter_append ?_ overlay rest
  rw [List.forall₂_map_left_iff, List.forall₂_same]
  intro pair hpair
  have found := assignment?_of_isName (named pair hpair) pair.2.toList
  rwa [String.ofList_toList] at found

/-- The words of a line of assignments and of texts that each make one
    word. -/
theorem tokenize_assignments (pairs : List (String × String))
    (named : ∀ pair ∈ pairs, IsName pair.1) (others : List (String × Draft))
    (reads : ∀ other ∈ others,
      Mode.gap.Reads other.1.toList (.word other.2)) :
    tokenize (" ".intercalate
        ((pairs.map fun pair => assignmentText pair.1 pair.2) ++
          others.map Prod.fst)).toList =
      .ok ((pairs.map fun pair => assignmentWord pair.1 pair.2) ++
        others.map fun other => other.2.word) := by
  let parts : List (List Char × Draft) :=
    (pairs.map fun pair => ((assignmentText pair.1 pair.2).toList,
      ⟨pair.1.toList ++ '=' :: pair.2.toList, pair.1.toList.length + 1,
        false⟩)) ++
    others.map fun other => (other.1.toList, other.2)
  have whole := Mode.words_intercalate parts (by
    intro part hpart
    rcases List.mem_append.mp hpart with hpart | hpart
    · obtain ⟨pair, hpair, rfl⟩ := List.mem_map.mp hpart
      dsimp only
      exact Mode.reads_assignment (named pair hpair) pair.2
    · obtain ⟨other, hother, rfl⟩ := List.mem_map.mp hpart
      exact reads other hother)
  have line : (" ".intercalate
      ((pairs.map fun pair => assignmentText pair.1 pair.2) ++
        others.map Prod.fst)).toList =
      [' '].intercalate (parts.map Prod.fst) := by
    rw [String.toList_intercalate]
    simp [parts, Function.comp_def]
  rw [tokenize, line, whole]
  simp [parts, Function.comp_def, assignmentWord, Draft.word]

/-- The words of a written line. -/
theorem tokenize_written (pairs : List (String × String))
    (named : ∀ pair ∈ pairs, IsName pair.1) (words : List String) :
    tokenize (written pairs words).toList =
      .ok ((pairs.map fun pair => assignmentWord pair.1 pair.2) ++
        words.map quotedWord) := by
  have whole := tokenize_assignments pairs named
    (words.map fun w => (singleQuoted w, ⟨w.toList, 0, false⟩)) (by
      intro other hother
      obtain ⟨w, -, rfl⟩ := List.mem_map.mp hother
      exact Mode.reads_quoted w)
  rw [List.map_map, List.map_map] at whole
  exact whole

/-- A written line is read back: the overlay holds the assignments, each
    name at its first place and with its last value, the first word is the
    command and the others are the arguments.  So no quoted word counts as
    an assignment, whatever it looks like. -/
theorem read_written (pairs : List (String × String))
    (named : ∀ pair ∈ pairs, IsName pair.1) (command : String)
    (args : List String) :
    Line.read (written pairs (command :: args)) =
      .ok ⟨command,
        .ofList (pairs.map fun pair => (pair.1, .text pair.2)),
        args.map .text⟩ := by
  rw [Line.read, tokenize_written pairs named]
  show Except.ok (Line.ofWords _) = _
  rw [Line.ofWords, ofWordsAfter_assignments pairs named, List.map_cons,
    Line.ofWordsAfter, assignment?_of_plain_eq_zero _ rfl]
  simp [text_quotedWord, Function.comp_def, OrderedMap.ofList]

/-- Quotes, an empty text, a comment sign, a repeated name, and a command
    that looks like an assignment. -/
theorem read_written_repeated_name :
    (∀ pair ∈ [("A", "x'y"), ("_b", ""), ("A", "#=")], IsName pair.1) ∧
      Line.read (written [("A", "x'y"), ("_b", ""), ("A", "#=")]
          ["B=1", "", "\n'"]) =
        .ok ⟨"B=1", .ofList [("A", .text "x'y"), ("_b", .text ""),
          ("A", .text "#=")], [.text "", .text "\n'"]⟩ := by
  have named : ∀ pair ∈ [("A", "x'y"), ("_b", ""), ("A", "#=")],
      IsName pair.1 := by
    intro pair hpair
    simp only [List.mem_cons, List.not_mem_nil, or_false] at hpair
    rcases hpair with rfl | rfl | rfl
    · exact ⟨'A', [], by simp, by decide, List.forall_mem_nil _⟩
    · exact ⟨'_', ['b'], by simp, by decide, List.forall_mem_singleton.mpr rfl⟩
    · exact ⟨'A', [], by simp, by decide, List.forall_mem_nil _⟩
  exact ⟨named, read_written _ named "B=1" ["", "\n'"]⟩

end LineShell
