import LineShell.Proofs.Line.Assignments
import LineShell.Proofs.Session.Routing

/-! # Lines without a command — and those that count as such

    No word of a line is lost: its words are its assignments, its command
    and its arguments, in this order.  A line counts as empty if its command
    is the empty text, and an empty text stands for two things: that no word
    is left behind the assignments, and that the word there is an empty one,
    in quotes.  So a line can count as empty and have arguments
    (`isEmpty_quotedNothing`), and nothing is dispatched for it then but
    what is done for a line without a command (`read_keeps_words`). -/

namespace LineShell

/-- Something that is done for a line without a command. -/
def Doing.isForNothing : Doing → Bool
  | .hook name .. => name == "emptycommand"
  | .method _ name _ => name == "emptycommand"
  | _ => false

variable {execute : Executor} {s s' : Session} {raw : Value} {line : Line}

/-! ## The route of an empty command -/

theorem Registry.route_eq_empty_iff {r : Registry} :
    r.route line = .empty ↔ line.command = "" := by
  constructor
  · intro h
    have happlies := (r.route_isFirst line).applies
    rw [h] at happlies
    cases happlies with
    | empty hcommand => exact hcommand
  · intro h
    rw [route, if_pos (Line.isEmpty_iff.mpr h)]

/-- What is done for a line without a command takes a route. -/
theorem isRouted_of_isForNothing {doing : Doing}
    (hline : Course.ForLine raw doing) (h : doing.isForNothing = true) :
    doing.isRouted = true := by
  cases hline with
  | routed => rfl
  | hook hook i given hhook =>
      rw [Doing.isRouted, Bool.or_eq_true]
      exact .inl h
  | _ => simp [Doing.isForNothing] at h

theorem FirstOf.ne_nil {hook : String} {given : List (String × Value)}
    {last : Doing} {chain : List Implementation} {doings : List Doing}
    (h : FirstOf execute hook given last chain s doings) : doings ≠ [] := by
  cases h <;> exact List.cons_ne_nil _ _

/-- The route of an empty command is taken by what is done for a line
    without a command, and no other route is. -/
theorem Takes.isForNothing_iff {route : Route} {doings : List Doing}
    (h : Takes execute raw line s route doings) :
    (∃ doing ∈ doings, doing.isForNothing = true) ↔ route = .empty := by
  cases h with
  | empty h =>
      refine ⟨fun _ => rfl, fun _ => ?_⟩
      obtain ⟨doing, hdoing⟩ := List.exists_mem_of_ne_nil _ h.ne_nil
      refine ⟨doing, hdoing, ?_⟩
      rcases h.mem hdoing with rfl | ⟨i, rfl⟩ <;> rfl
  | unknown h =>
      refine ⟨?_, nofun⟩
      rintro ⟨doing, hdoing, hnothing⟩
      rcases h.mem hdoing with rfl | ⟨i, rfl⟩ <;> cases hnothing
  | _ =>
      refine ⟨?_, nofun⟩
      rintro ⟨doing, hdoing, hnothing⟩
      obtain rfl := List.mem_singleton.mp hdoing
      cases hnothing

/-- A line is dispatched as one without a command just if its command is
    the empty text. -/
theorem Course.dispatch_isForNothing_iff {r : Except Fault Value}
    {deeds : List Deed}
    (h : dispatch execute line raw s = some ((r, s'), deeds)) :
    (∃ d ∈ deeds, d.doing.isForNothing = true) ↔ line.command = "" := by
  obtain ⟨saved, u, -, htakes⟩ := dispatch_takes h
  rw [← Registry.route_eq_empty_iff (r := s.registry),
    ← htakes.isForNothing_iff]
  constructor
  · rintro ⟨d, hd, hnothing⟩
    have hrouted := isRouted_of_isForNothing
      (dispatch_does line raw s r s' deeds h d hd) hnothing
    exact ⟨d.doing, mem_routed hd hrouted, hnothing⟩
  · rintro ⟨doing, hdoing, hnothing⟩
    obtain ⟨d, hd, rfl⟩ := List.mem_map.mp (List.mem_filter.mp hdoing).1
    exact ⟨d, hd, hnothing⟩

/-! ## Words and emptiness -/

/-- No word of a line is lost: splitting gives the assignments at its
    start, then the command if a word is left, and the arguments; without a
    command there are no arguments.  But a line counts as empty, and is
    dispatched as one without a command, also if the first word left is an
    empty one. -/
theorem read_keeps_words (text : String) (line : Line)
    (h : Line.read text = .ok line) :
    ∃ given others, FallsInto text given others ∧
      splitWords text = .ok ((given ++ others).map Spelling.text) ∧
      (others = [] → line.command = "" ∧ line.args = []) ∧
      (∀ w rest, others = w :: rest → line.command = w.text ∧
        line.args = rest.map fun w => .text w.text) ∧
      (line.isEmpty = true ↔ ∀ w ∈ others.head?, w.chars = []) ∧
      ∀ execute raw s r s' deeds,
        Course.dispatch execute line raw s = some ((r, s'), deeds) →
        ((∃ d ∈ deeds, d.doing.isForNothing = true) ↔
          ∀ w ∈ others.head?, w.chars = []) := by
  obtain ⟨given, others, hparts⟩ := exists_fallsInto_of_read h
  obtain ⟨pairs, hpairs⟩ := hparts.exists_pairs
  obtain rfl := Except.ok.inj (h.symm.trans (hparts.read hpairs))
  have hempty : (others.head?.map Spelling.text).getD "" = "" ↔
      ∀ w ∈ others.head?, w.chars = [] := by
    cases others with
    | nil => simp
    | cons w rest => simp [Spelling.text]
  refine ⟨given, others, hparts, hparts.splitWords, ?_, ?_, ?_, ?_⟩
  · rintro rfl
    exact ⟨rfl, rfl⟩
  · rintro w rest rfl
    exact ⟨rfl, rfl⟩
  · rw [Line.isEmpty_iff]
    exact hempty
  · intro execute raw s r s' deeds hdispatch
    rw [Course.dispatch_isForNothing_iff hdispatch]
    exact hempty

/-- A word between assignments and arguments that is empty: the line counts
    as empty all the same. -/
theorem read_keeps_words_quoted :
    Line.read "A=1 \"\" x" =
        .ok ⟨"", .ofList [("A", .text "1")], [.text "x"]⟩ ∧
      ∃ given others, FallsInto "A=1 \"\" x" given others ∧
        (given ++ others).map Spelling.text = ["A=1", "", "x"] ∧
        others ≠ [] ∧ ∀ w ∈ others.head?, w.chars = [] := by
  have h : Line.read "A=1 \"\" x" =
      .ok ⟨"", .ofList [("A", .text "1")], [.text "x"]⟩ := by
    rfl
  have hsplit : splitWords "A=1 \"\" x" = .ok ["A=1", "", "x"] := by rfl
  obtain ⟨given, others, hparts, hwords, hnone, -, hempty, -⟩ :=
    read_keeps_words _ _ h
  refine ⟨h, given, others, hparts, ?_, ?_, hempty.mp rfl⟩
  · exact Except.ok.inj (hwords.symm.trans hsplit)
  · intro hothers
    cases (hnone hothers).2

/-- A word of quotes with nothing between them. -/
def quotedNothing : Spelling := ⟨['\'', '\''], []⟩

/-- A word of one letter. -/
def plainWord : Spelling := ⟨['x'], ['x']⟩

theorem fallsInto_quotedNothing :
    FallsInto "'' x" [] [quotedNothing, plainWord] := by
  have hnothing : WordForm quotedNothing.source quotedNothing.chars :=
    .intro (.single List.not_mem_nil) (by decide) .nil
  have hword : WordForm plainWord.source plainWord.chars :=
    .intro (.plain (by decide)) (by decide) .nil
  have hlast : Layout .clear ['x'] [plainWord] := .word hword nofun .nil
  have hspace : AtBoundary [' ', 'x'] := by
    intro c hc
    rw [← Option.mem_some_iff.mp hc]
    decide
  refine ⟨⟨.clear, .word hnothing hspace (.separator (by decide) hlast)⟩,
    nofun, ?_⟩
  intro w hw
  rw [← Option.mem_some_iff.mp hw]
  exact (assignment?_eq_none_iff hnothing).mp rfl

/-- A line of these two has a word for a command, and an argument, but it
    counts as empty, and whatever is registered, it goes where a line
    without a command goes. -/
theorem isEmpty_quotedNothing :
    ∃ line, Line.read "'' x" = .ok line ∧
      FallsInto "'' x" [] [quotedNothing, plainWord] ∧
      line.args = [.text plainWord.text] ∧ line.isEmpty = true ∧
      ∀ r : Registry, r.route line = .empty :=
  ⟨_, fallsInto_quotedNothing.read .nil, fallsInto_quotedNothing, rfl, rfl,
    fun _ => Registry.route_eq_empty_iff.mpr rfl⟩

end LineShell
