import LineShell.Session.Command
import LineShell.Proofs.Text.Caseless

/-! # Routes — the first that applies

    Several routes can apply to one line: a handler may be registered under
    a quit word, under a name with the escape mark, or under no name at
    all.  They stand in a fixed order, and a line takes the first that
    applies (`Registry.route_isFirst`).  So no handler is ever reached by a
    command of a special form, and none but these and the empty name hide a
    handler (`Registry.route_handler`). -/

namespace LineShell

open LineShell.Text

/-- The place of a route in their order. -/
def Route.rank : Route → Nat
  | .empty => 0
  | .quit => 1
  | .help => 2
  | .escape _ => 3
  | .handler _ => 4
  | .unknown => 5

theorem Line.isEmpty_iff {line : Line} :
    line.isEmpty = true ↔ line.command = "" :=
  String.isEmpty_iff

/-- What stands behind the escape mark is the first word of a command line,
    unless nothing does. -/
def programWords (program : String) : List Value :=
  if program = "" then [] else [.text program]

namespace Registry

/-- Which routes apply to a line. -/
inductive Applies (r : Registry) (line : Line) : Route → Prop where
  | empty (h : line.command = "") : Applies r line .empty
  | quit (h : IsWordOf quitWords line.command) : Applies r line .quit
  | help (h : IsWordOf helpWords line.command) : Applies r line .help
  | escape {program : String} (h : line.command = "!" ++ program) :
      Applies r line (.escape (programWords program ++ line.args))
  | handler {h : Handler} (hlisted : line.command ∈ r.dispatchable)
      (hfound : r.handler? line.command = some h)
      (hmember : h.member.isNull = false) :
      Applies r line (.handler h.member)
  | unknown : Applies r line .unknown

/-- The route applies, and every other that does comes after it. -/
structure IsFirst (r : Registry) (line : Line) (route : Route) : Prop where
  applies : Applies r line route
  first : ∀ other, Applies r line other →
    other = route ∨ route.rank < other.rank

/-- Commands that no handler gets. -/
inductive Special (command : String) : Prop where
  | quit (h : IsWordOf quitWords command)
  | help (h : IsWordOf helpWords command)
  | escape {program : String} (h : command = "!" ++ program)

variable {r : Registry} {line : Line}

/-! ## Key words -/

theorem isKeyword_quitWords {command : String} :
    isKeyword quitWords command = true ↔ IsWordOf quitWords command :=
  isKeyword_iff (by decide)

theorem isKeyword_helpWords {command : String} :
    isKeyword helpWords command = true ↔ IsWordOf helpWords command :=
  isKeyword_iff (by decide)

/-! ## Handlers -/

/-- A command is dispatched to a handler that is listed, recorded and not
    missing. -/
theorem dispatch?_eq_some_iff {name : String} {b : Bound} :
    r.dispatch? name = some b ↔ name ∈ r.dispatchable ∧
      ∃ h, r.handler? name = some h ∧ h.member.isNull = false ∧
        h.member = b := by
  rw [dispatch?]
  constructor
  · intro hdispatch
    split at hdispatch
    · rename_i hlisted
      split at hdispatch
      · rename_i h hfound
        split at hdispatch
        · cases hdispatch
        · rename_i hmember
          exact ⟨List.contains_iff_mem.mp hlisted, h, hfound,
            Bool.eq_false_iff.mpr hmember, Option.some.inj hdispatch⟩
      · cases hdispatch
    · cases hdispatch
  · rintro ⟨hlisted, h, hfound, hmember, rfl⟩
    rw [if_pos (List.contains_iff_mem.mpr hlisted), hfound]
    dsimp only
    rw [hmember, if_neg Bool.false_ne_true]

/-! ## The first route -/

/-- Routes that apply to one line are the same if they have the same
    place. -/
theorem Applies.unique {one other : Route} (hone : Applies r line one)
    (hother : Applies r line other) (hrank : one.rank = other.rank) :
    one = other := by
  cases hone with
  | @escape program h =>
      cases hother with
      | @escape program' h' =>
          have hprogram : program = program' :=
            String.append_right_inj "!" |>.mp (h.symm.trans h')
          rw [hprogram]
      | _ => cases hrank
  | @handler h _ hfound _ =>
      cases hother with
      | @handler h' _ hfound' _ =>
          rw [Option.some.inj (hfound.symm.trans hfound')]
      | _ => cases hrank
  | _ => cases hother <;> first | rfl | cases hrank

/-- A route that applies is the first if none that applies has an earlier
    place. -/
theorem IsFirst.of_least {route : Route} (h : Applies r line route)
    (hleast : ∀ other, Applies r line other → route.rank ≤ other.rank) :
    IsFirst r line route := by
  refine ⟨h, ?_⟩
  intro other hother
  rcases Nat.eq_or_lt_of_le (hleast other hother) with hrank | hrank
  · exact .inl (hother.unique h hrank.symm)
  · exact .inr hrank

/-- To a command of no special form no route applies but that of a handler
    and that of an unknown command. -/
theorem Applies.rank_ordinary {route : Route} (h : Applies r line route)
    (hempty : line.command ≠ "") (hspecial : ¬ Special line.command) :
    4 ≤ route.rank := by
  cases h with
  | empty h => exact absurd h hempty
  | quit h => exact absurd (.quit h) hspecial
  | help h => exact absurd (.help h) hspecial
  | escape h => exact absurd (.escape h) hspecial
  | handler => exact Nat.le_refl 4
  | unknown => exact Nat.le_succ 4

/-- Without a command of a special form a line is dispatched. -/
theorem route_ordinary (hempty : line.command ≠ "")
    (hspecial : ¬ Special line.command) :
    r.route line =
      match r.dispatch? line.command with
      | some b => .handler b
      | none => .unknown := by
  have hquit : ¬ isKeyword quitWords line.command = true :=
    fun h => hspecial (.quit (isKeyword_quitWords.mp h))
  have hhelp : ¬ isKeyword helpWords line.command = true :=
    fun h => hspecial (.help (isKeyword_helpWords.mp h))
  have hescape : ∀ program, line.command.toList ≠ '!' :: program :=
    fun program h => hspecial (@Special.escape _ (String.ofList program)
      (String.toList_inj.mp (by rw [h, String.toList_append]; simp)))
  rw [route, if_neg (mt Line.isEmpty_iff.mp hempty), if_neg hquit,
    if_neg hhelp]
  split
  · exact absurd ‹_› (hescape [])
  · exact absurd ‹_› (hescape _)
  · rfl

/-- Behind the escape mark a line goes to a program. -/
theorem route_escape {program : String} (h : line.command = "!" ++ program)
    (hquit : ¬ IsWordOf quitWords line.command)
    (hhelp : ¬ IsWordOf helpWords line.command) :
    r.route line = .escape (programWords program ++ line.args) := by
  have hchars : line.command.toList = '!' :: program.toList := by
    rw [h, String.toList_append]
    rfl
  have hempty : line.command ≠ "" := by
    intro hempty
    rw [hempty] at hchars
    cases hchars
  rw [route, if_neg (mt Line.isEmpty_iff.mp hempty), if_neg (mt isKeyword_quitWords.mp hquit),
    if_neg (mt isKeyword_helpWords.mp hhelp), hchars, programWords]
  cases hprogram : program.toList with
  | nil => rw [if_pos (String.toList_eq_nil_iff.mp hprogram)]; rfl
  | cons c cs =>
      have hne : program ≠ "" := by
        rintro rfl
        cases hprogram
      rw [if_neg hne, ← String.ofList_toList (s := program), hprogram]
      rfl

/-- A quit word that is no empty command goes first to quitting. -/
theorem isFirst_quit (hempty : line.command ≠ "")
    (hquit : IsWordOf quitWords line.command) : IsFirst r line .quit := by
  refine .of_least (.quit hquit) ?_
  intro other hother
  cases hother with
  | empty h => exact absurd h hempty
  | _ => simp [Route.rank]

theorem isFirst_help (hempty : line.command ≠ "")
    (hquit : ¬ IsWordOf quitWords line.command)
    (hhelp : IsWordOf helpWords line.command) : IsFirst r line .help := by
  refine .of_least (.help hhelp) ?_
  intro other hother
  cases hother with
  | empty h => exact absurd h hempty
  | quit h => exact absurd h hquit
  | _ => simp [Route.rank]

theorem isFirst_escape {program : String} (hempty : line.command ≠ "")
    (hquit : ¬ IsWordOf quitWords line.command)
    (hhelp : ¬ IsWordOf helpWords line.command)
    (h : line.command = "!" ++ program) :
    IsFirst r line (.escape (programWords program ++ line.args)) := by
  refine .of_least (.escape h) ?_
  intro other hother
  cases hother with
  | empty h => exact absurd h hempty
  | quit h => exact absurd h hquit
  | help h => exact absurd h hhelp
  | _ => simp [Route.rank]

/-- A command of no special form goes to its handler, and if there is none
    it is unknown. -/
theorem isFirst_ordinary (hempty : line.command ≠ "")
    (hspecial : ¬ Special line.command) :
    IsFirst r line
      (match r.dispatch? line.command with
        | some b => .handler b
        | none => .unknown) := by
  cases hdispatch : r.dispatch? line.command with
  | some b =>
      obtain ⟨hlisted, h, hfound, hmember, rfl⟩ :=
        dispatch?_eq_some_iff.mp hdispatch
      exact .of_least (.handler hlisted hfound hmember)
        fun other hother => hother.rank_ordinary hempty hspecial
  | none =>
      refine .of_least .unknown ?_
      intro other hother
      have hrank := hother.rank_ordinary hempty hspecial
      cases hother with
      | handler hlisted hfound hmember =>
          have hsome := dispatch?_eq_some_iff.mpr
            ⟨hlisted, _, hfound, hmember, rfl⟩
          rw [hdispatch] at hsome
          cases hsome
      | unknown => exact Nat.le_refl _
      | _ => simp [Route.rank] at hrank

/-- The route that a line takes is the first that applies. -/
theorem route_isFirst (r : Registry) (line : Line) :
    IsFirst r line (r.route line) := by
  by_cases hempty : line.command = ""
  · rw [route, if_pos (Line.isEmpty_iff.mpr hempty)]
    exact .of_least (.empty hempty) fun other _ => Nat.zero_le _
  have hisEmpty := mt Line.isEmpty_iff.mp hempty
  by_cases hquit : IsWordOf quitWords line.command
  · rw [route, if_neg hisEmpty, if_pos (isKeyword_quitWords.mpr hquit)]
    exact isFirst_quit hempty hquit
  by_cases hhelp : IsWordOf helpWords line.command
  · rw [route, if_neg hisEmpty, if_neg (mt isKeyword_quitWords.mp hquit),
      if_pos (isKeyword_helpWords.mpr hhelp)]
    exact isFirst_help hempty hquit hhelp
  by_cases hescape : ∃ program, line.command = "!" ++ program
  · obtain ⟨program, hprogram⟩ := hescape
    rw [route_escape hprogram hquit hhelp]
    exact isFirst_escape hempty hquit hhelp hprogram
  have hspecial : ¬ Special line.command := by
    rintro (h | h | h)
    · exact hquit h
    · exact hhelp h
    · exact hescape ⟨_, h⟩
  rw [route_ordinary hempty hspecial]
  exact isFirst_ordinary hempty hspecial

/-- A command of a special form leads to no handler, and it is never
    unknown. -/
theorem IsFirst.rank_special {route : Route} (h : IsFirst r line route)
    (hspecial : Special line.command) : route.rank ≤ 3 := by
  have hleast : ∀ other, Applies r line other → other.rank ≤ 3 →
      route.rank ≤ 3 := by
    intro other hother hrank
    rcases h.first other hother with rfl | hlt
    · exact hrank
    · omega
  cases hspecial with
  | quit hquit => exact hleast .quit (.quit hquit) (by decide)
  | help hhelp => exact hleast .help (.help hhelp) (by decide)
  | escape hescape => exact hleast _ (.escape hescape) (Nat.le_refl 3)

/-- A handler that is listed, recorded and not missing is where its name
    leads, unless the name is empty or of a special form. -/
theorem route_handler {h : Handler} (hempty : line.command ≠ "")
    (hspecial : ¬ Special line.command)
    (hlisted : line.command ∈ r.dispatchable)
    (hfound : r.handler? line.command = some h)
    (hmember : h.member.isNull = false) :
    r.route line = .handler h.member := by
  rw [route_ordinary hempty hspecial,
    dispatch?_eq_some_iff.mpr ⟨hlisted, h, hfound, hmember, rfl⟩]

end Registry

end LineShell
