import LineShell.Proofs.Line.Quoting
import LineShell.Proofs.OrderedMap
import LineShell.Proofs.Word.Layout

/-! # Assignments — how the words of a line are sorted

    A word is an assignment by its spelling: a name and an equals sign
    stand at its start as they are, with at most vanishing pairs among
    them (`Spelling.IsAssignment`).  The reader decides it by the text of
    the word and the number of its bare characters, which comes to the same
    (`assigns_iff`).

    The leading assignments of a line are its overlay, and nothing else is:
    the first word that is no assignment is the command, and the words
    behind it are arguments, however they are spelled (`FallsInto.read`,
    `read_assignments`). -/

namespace LineShell

open LineShell.Text

/-! ## Assignments by spelling -/

namespace Spelling

/-- A word is spelled as an assignment to a name: once vanishing pairs are
    left out, it starts with the name and an equals sign, and no quote or
    escape stands before or among them. -/
def AssignsTo (w : Spelling) (name : String) : Prop :=
  IsName name ∧
    ∃ rest, withoutPairs w.source = name.toList ++ '=' :: rest

/-- The word is spelled as an assignment. -/
def IsAssignment (w : Spelling) : Prop :=
  ∃ name, w.AssignsTo name

/-- The word is spelled as an assignment to a name, and the value is what
    its text has behind the first equals sign.  (There is none in a
    name.) -/
structure Assigns (w : Spelling) (name value : String) : Prop where
  spelled : w.AssignsTo name
  value : w.chars = name.toList ++ '=' :: value.toList

end Spelling

variable {name value : String} {w : Spelling} {src text : List Char}

theorem isMark_of_isNameChar {c : Char} (h : isNameChar c = true) :
    isMark c = false :=
  isMark_of_ordinary (ordinary_of_isNameChar h).1

/-- A name with an equals sign starts a spelling just if it starts the bare
    run. -/
theorem IsName.starts_bareRun (h : IsName name) :
    name.toList ++ ['='] <+: bareRun src ↔
      ∃ rest, withoutPairs src = name.toList ++ '=' :: rest := by
  constructor
  · intro hbare
    obtain ⟨rest, hrest⟩ := hbare.trans (List.takeWhile_prefix _)
    rw [List.append_assoc, List.singleton_append] at hrest
    exact ⟨rest, hrest.symm⟩
  · rintro ⟨rest, hrest⟩
    have unmarked : ∀ c ∈ name.toList, (!isMark c) = true := by
      intro c hc
      rw [isMark_of_isNameChar (h.all c hc)]
      rfl
    have equals : (!isMark '=') = true := by decide
    rw [bareRun, hrest, List.takeWhile_append_of_pos unmarked,
      List.takeWhile_cons_of_pos (p := fun c => !isMark c) equals,
      List.prefix_append_right_inj]
    exact List.prefix_append ['='] _

/-- The reader takes a word for an assignment just if it is one by its
    spelling. -/
theorem assigns_iff (hw : WordForm w.source w.chars) :
    w.word.assignment? = some (name, value) ↔ w.Assigns name value := by
  have hbare := hw.bareRun_prefix
  rw [Word.assignment?_eq_some_iff]
  constructor
  · rintro ⟨hname, hchars, hcount⟩
    have hchars : w.chars = name.toList ++ '=' :: value.toList := hchars
    have hstart : name.toList ++ ['='] <+: w.chars := by
      rw [hchars, List.prefix_append_right_inj]
      exact List.prefix_append ['='] _
    have hlength :
        (name.toList ++ ['=']).length ≤ (bareRun w.source).length := by
      rw [List.length_append]
      exact hcount
    exact ⟨⟨hname, hname.starts_bareRun.mp
      (List.prefix_of_prefix_length_le hstart hbare hlength)⟩, hchars⟩
  · rintro ⟨⟨hname, hspelled⟩, hchars⟩
    have hlength := (hname.starts_bareRun.mpr hspelled).length_le
    rw [List.length_append] at hlength
    exact ⟨hname, hchars, hlength⟩

/-- A word that is spelled as an assignment has a value. -/
theorem Spelling.AssignsTo.assigns (hw : WordForm w.source w.chars)
    (h : w.AssignsTo name) : ∃ value, w.Assigns name value := by
  obtain ⟨rest, hrest⟩ :=
    (h.1.starts_bareRun.mpr h.2).trans hw.bareRun_prefix
  rw [List.append_assoc, List.singleton_append] at hrest
  refine ⟨String.ofList rest, h, ?_⟩
  rw [String.toList_ofList, hrest]

theorem assignment?_eq_none_iff (hw : WordForm w.source w.chars) :
    w.word.assignment? = none ↔ ¬ w.IsAssignment := by
  rw [Option.eq_none_iff_forall_ne_some]
  constructor
  · rintro hnone ⟨name, hname⟩
    obtain ⟨value, hvalue⟩ := hname.assigns hw
    exact hnone _ ((assigns_iff hw).mpr hvalue)
  · rintro hnot ⟨name, value⟩ hsome
    exact hnot ⟨name, ((assigns_iff hw).mp hsome).spelled⟩

/-! ## The parts of a line -/

/-- A line falls into assignments and other words: the assignments are the
    longest run of them at its start. -/
structure FallsInto (line : String) (given others : List Spelling) :
    Prop where
  layout : ∃ e, Layout e line.toList (given ++ others)
  given : ∀ w ∈ given, w.IsAssignment
  others : ∀ w ∈ others.head?, ¬ w.IsAssignment

variable {line : String} {given others : List Spelling}
variable {pairs : List (String × String)}

theorem Layout.wordForm {e : LineEnd} {ws : List Spelling} {cs : List Char}
    (h : Layout e cs ws) : ∀ w ∈ ws, WordForm w.source w.chars := by
  induction h with
  | nil => exact nofun
  | comment => exact nofun
  | separator _ _ ih => exact ih
  | lineFeed _ ih => exact ih
  | word hw _ _ ih => exact List.forall_mem_cons.mpr ⟨hw, ih⟩

/-- A list has a longest run of assignments at its start. -/
theorem exists_run (ws : List Spelling) :
    ∃ given others, ws = given ++ others ∧
      (∀ w ∈ given, w.IsAssignment) ∧
      ∀ w ∈ others.head?, ¬ w.IsAssignment := by
  induction ws with
  | nil => exact ⟨[], [], rfl, nofun, nofun⟩
  | cons w ws ih =>
      by_cases hw : w.IsAssignment
      · obtain ⟨given, others, rfl, hgiven, hothers⟩ := ih
        exact ⟨w :: given, others, rfl,
          List.forall_mem_cons.mpr ⟨hw, hgiven⟩, hothers⟩
      · refine ⟨[], w :: ws, rfl, nofun, ?_⟩
        intro x hx
        rw [← Option.mem_some_iff.mp hx]
        exact hw

/-- No longer run starts where a run of assignments meets another word. -/
theorem run_not_longer {more : List Spelling}
    (hgiven : ∀ w ∈ given ++ more, w.IsAssignment)
    (hothers : ∀ w ∈ (more ++ others).head?, ¬ w.IsAssignment) :
    more = [] := by
  cases more with
  | nil => rfl
  | cons w more =>
      have hmem : w ∈ given ++ w :: more :=
        List.mem_append_right given List.mem_cons_self
      exact absurd (hgiven w hmem) (hothers w rfl)

/-- A line falls into its parts in one way only. -/
theorem FallsInto.unique {given' others' : List Spelling}
    (h : FallsInto line given others) (h' : FallsInto line given' others') :
    given = given' ∧ others = others' := by
  obtain ⟨e, hl⟩ := h.layout
  obtain ⟨e', hl'⟩ := h'.layout
  rcases List.append_eq_append_iff.mp (hl.unique hl').2 with
    ⟨more, rfl, rfl⟩ | ⟨more, rfl, rfl⟩
  · obtain rfl := run_not_longer h'.given h.others
    exact ⟨(List.append_nil given).symm, rfl⟩
  · obtain rfl := run_not_longer h.given h'.others
    exact ⟨List.append_nil given', rfl⟩

/-- Every line that can be split falls into parts. -/
theorem exists_fallsInto {words : List Word}
    (h : tokenize line.toList = .ok words) :
    ∃ given others, FallsInto line given others := by
  obtain ⟨e, ws, hl, -⟩ := layout_of_words h
  obtain ⟨given, others, rfl, hgiven, hothers⟩ := exists_run ws
  exact ⟨given, others, ⟨e, hl⟩, hgiven, hothers⟩

theorem exists_fallsInto_of_read {l : Line} (h : Line.read line = .ok l) :
    ∃ given others, FallsInto line given others := by
  rw [Line.read] at h
  cases hwords : tokenize line.toList with
  | ok words => exact exists_fallsInto hwords
  | error p =>
      rw [hwords] at h
      cases h

/-- The assignments of a line give values to names. -/
theorem FallsInto.exists_pairs (h : FallsInto line given others) :
    ∃ pairs : List (String × String),
      List.Forall₂ (fun w pair => w.Assigns pair.1 pair.2) given pairs := by
  obtain ⟨e, hl⟩ := h.layout
  have hforms : ∀ w ∈ given, WordForm w.source w.chars :=
    fun w hw => hl.wordForm w (List.mem_append_left others hw)
  have hgiven := h.given
  clear h hl
  induction given with
  | nil => exact ⟨[], .nil⟩
  | cons w given ih =>
      rw [List.forall_mem_cons] at hforms hgiven
      obtain ⟨name, hname⟩ := hgiven.1
      obtain ⟨value, hvalue⟩ := hname.assigns hforms.1
      obtain ⟨pairs, hpairs⟩ := ih hforms.2 hgiven.2
      exact ⟨(name, value) :: pairs, .cons hvalue hpairs⟩

/-- The words of a line are its assignments and its other words. -/
theorem FallsInto.splitWords (h : FallsInto line given others) :
    splitWords line = .ok ((given ++ others).map Spelling.text) := by
  obtain ⟨e, hl⟩ := h.layout
  rw [splitWords_of_ok hl.words, List.map_map]
  rfl

/-- What a line is read as, by its parts. -/
theorem FallsInto.read (h : FallsInto line given others)
    (hpairs : List.Forall₂ (fun w pair => w.Assigns pair.1 pair.2) given
      pairs) :
    Line.read line =
      .ok ⟨(others.head?.map Spelling.text).getD "",
        .ofList (pairs.map fun pair => (pair.1, .text pair.2)),
        others.tail.map fun w => .text w.text⟩ := by
  obtain ⟨e, hl⟩ := h.layout
  have hforms := hl.wordForm
  have hassigned : List.Forall₂ (fun w pair => w.assignment? = some pair)
      (given.map Spelling.word) pairs := by
    rw [List.forall₂_map_left_iff]
    have hformed := (List.forall₂_and_left _ _).mpr
      ⟨fun w hw => hforms w (List.mem_append_left others hw), hpairs⟩
    exact hformed.imp fun w pair hw => (assigns_iff hw.1).mpr hw.2
  have hwords : tokenize line.toList =
      .ok (given.map Spelling.word ++ others.map Spelling.word) := by
    rw [← List.map_append]
    exact hl.words
  rw [Line.read, hwords]
  show Except.ok (Line.ofWords _) = _
  rw [Line.ofWords, ofWordsAfter_append hassigned]
  cases others with
  | nil => rfl
  | cons w rest =>
      have hform := hforms w (List.mem_append_right given List.mem_cons_self)
      have hcommand := (assignment?_eq_none_iff hform).mpr (h.others w rfl)
      rw [List.map_cons, Line.ofWordsAfter, hcommand]
      simp only [List.map_map]
      rfl

/-- The overlay of a line that can be split comes from its longest leading
    run of words that are spelled as assignments.  Each gives its name what
    its text has behind the first equals sign; of a name that is given more
    than once the first place is kept and the last value.  The word behind
    the run is the command and all others are arguments, however they are
    spelled, with their texts. -/
theorem read_assignments (text : String) (line : Line)
    (h : Line.read text = .ok line) :
    ∃ given others pairs, FallsInto text given others ∧
      (∀ given' others', FallsInto text given' others' →
        given' = given ∧ others' = others) ∧
      List.Forall₂ (fun w pair => w.Assigns pair.1 pair.2) given pairs ∧
      line.overlay.names = (pairs.map Prod.fst).eraseDups ∧
      (∀ name, line.overlay.get? name =
        (OrderedMap.find name pairs.reverse).map .text) ∧
      (others = [] → line.command = "" ∧ line.args = []) ∧
      ∀ w rest, others = w :: rest → line.command = w.text ∧
        line.args = rest.map fun w => .text w.text := by
  obtain ⟨given, others, hparts⟩ := exists_fallsInto_of_read h
  obtain ⟨pairs, hpairs⟩ := hparts.exists_pairs
  obtain rfl := Except.ok.inj (h.symm.trans (hparts.read hpairs))
  refine ⟨given, others, pairs, hparts, fun _ _ h' => h'.unique hparts,
    hpairs, ?_, ?_, ?_, ?_⟩
  · rw [OrderedMap.names_ofList, List.map_map]
    rfl
  · intro name
    rw [OrderedMap.get?_ofList, ← List.map_reverse, OrderedMap.find_map]
  · rintro rfl
    exact ⟨rfl, rfl⟩
  · rintro w rest rfl
    exact ⟨rfl, rfl⟩

/-- A pair in a name, a value in quotes with an equals sign in it, a name
    that comes twice, and words that only look like assignments. -/
def spelledLine : String :=
  "A\\\nB=\"x=y\" C='' AB=\\# 'D'=1 E=2"

theorem read_assignments_spelled :
    Line.read spelledLine = .ok ⟨"D=1",
        .ofList [("AB", .text "x=y"), ("C", .text ""), ("AB", .text "#")],
        [.text "E=2"]⟩ ∧
      ∃ given others pairs, FallsInto spelledLine given others ∧
        List.Forall₂ (fun w pair => w.Assigns pair.1 pair.2) given pairs ∧
        (pairs.map Prod.fst).eraseDups = ["AB", "C"] ∧
        others.map Spelling.text = ["D=1", "E=2"] := by
  have h : Line.read spelledLine = .ok ⟨"D=1",
      .ofList [("AB", .text "x=y"), ("C", .text ""), ("AB", .text "#")],
      [.text "E=2"]⟩ := by
    rfl
  obtain ⟨given, others, pairs, hparts, -, hpairs, hnames, -, hnone,
    hsome⟩ := read_assignments spelledLine _ h
  refine ⟨h, given, others, pairs, hparts, hpairs, hnames.symm, ?_⟩
  cases others with
  | nil => exact absurd (hnone rfl).1 (by decide)
  | cons w rest =>
      obtain ⟨hcommand, hargs⟩ := hsome w rest rfl
      have htexts : (rest.map Spelling.text).map Value.text =
          ["E=2"].map Value.text := by
        rw [List.map_map]
        exact hargs.symm
      have hinjective : Function.Injective Value.text :=
        fun _ _ => Value.text.inj
      rw [List.map_cons, ← hcommand,
        List.map_injective_iff.mpr hinjective htexts]

end LineShell
