import LineShell.Proofs.Session.Reachable

/-! # Containment of a line — a line always comes to a value

    Where code raises ordinary faults that have a text, and the shell makes
    a text of every such fault, no line fails: whatever its class, its
    extensions, its programs and its prompt are made of, whatever they
    answer, and whatever its source comes up with, running a line ends in a
    value (`Run.runLine_returns`).

    There is one more way for a fault to come out: where the shell rewrites
    a line and reports it as bad without saying why, looking at the reason
    fails, and nothing contains that (`Run.runLine_fails`). -/

namespace LineShell

/-- Code that asks anything and raises ordinary faults that have a text;
    sources may come up with any fault. -/
def Conduct.ordinaryOnly : Conduct where
  asks _ := True
  raises f := f.isSignal = false ∧ f.textFault? = none
  hears _ := True
  plain {f} h := by
    cases f with
    | unexplained kind text => exact ⟨rfl, rfl⟩
    | textless kind cause => cases h
    | _ => exact ⟨(Bool.not_eq_true' _).mp h, rfl⟩
  causes h hcause := by
    rw [h.2] at hcause
    cases hcause

namespace Run

variable {k : Conduct} {s : Session} {depth : Nat}

/-- In no session that this one can become does the shell fail to make a
    text of a fault that has one. -/
def Formats (k : Conduct) (execute : Executor) (s : Session) : Prop :=
  ∀ s', Steps k True s s' → ∀ f, f.textFault? = none →
    ∃ v s'', formatFault execute f s' = some (.ok v, s'')

/-- In no session that this one can become does the shell rewrite a line
    and report it as bad without a reason. -/
def Explains (k : Conduct) (execute : Executor) (s : Session) : Prop :=
  ∀ s', Steps k True s s' → ∀ line f s'',
    callShell execute "precmd" [line] s' = some (.error f, s'') →
      ∀ g, f.lineReason? ≠ some (.error g)

/-- A class that inherits how to make a text of a fault never fails to. -/
theorem Formats.inherited (depth : Nat) {c : Class} (hc : s.shell = some c)
    (hd : c.lookup? "format_error" =
      OrderedMap.find "format_error" BaseShell.members) :
    Formats k (executeWithin (depth + 1)) s := by
  intro s' hs' f _
  exact ⟨_, _, formatFault_inherited depth (hs'.shell_eq.trans hc) hd f⟩

/-- A shell that never fails to make a text of a fault, and says why a line
    is bad, lets nothing else through than the signals of code. -/
theorem Formats.reports {execute : Executor} (hx : execute.Keeps k)
    (hs : s.Keeps k) (hf : Formats k execute s) (hw : Explains k execute s)
    (hk : ∀ f, k.raises f → f.textFault? = none) :
    Reports k s k.Escapes execute where
  escapes _ h := h
  texts f cause hraises hcause := by
    rw [hk f hraises] at hcause
    cases hcause
  reasons s' hs' line f g s'' he hreason :=
    absurd hreason (hw s' hs' line f s'' he g)
  formats f htext := by
    intro s' hs'
    obtain ⟨v, s'', he⟩ := hf s' hs' f htext
    have hb := callShell_behaves hx hs "format_error" [.fault f]
    exact ⟨.ok v, s'', he, (hb.of_eq hs' he).1, True.intro⟩

/-- Running a line returns a value.  Code may be of any class and any
    extension and may answer anything; what it raises is ordinary and has a
    text, and the shell says why a line that it rewrites is bad. -/
theorem runLine_returns
    (hk : ∀ f, k.raises f → f.isSignal = false ∧ f.textFault? = none)
    (hs : s.Reached k) (hf : Formats k (executeWithin depth) s)
    (hw : Explains k (executeWithin depth) s) (line : Value) :
    ∃ v s', runLine (executeWithin depth) line s = some (.ok v, s') := by
  have hx := executeWithin_keeps (k := k) depth
  have hkeeps := hs.keeps
  have hreports := hf.reports hx hkeeps hw fun f h => (hk f h).2
  obtain ⟨r, s', he, _, hr⟩ :=
    runLine_behaves hx hkeeps hreports line s .refl
  cases r with
  | ok v => exact ⟨v, s', he⟩
  | error f =>
      -- a fault that comes out is a signal of code, and code raises none
      obtain ⟨hsignal, hraises⟩ : k.Escapes f := hr
      rw [(hk f hraises).1] at hsignal
      cases hsignal

/-- A shell whose members and prompt all fail, the handler with a bad line
    that it does not explain; with a program that cannot be run and a source
    that interrupts. -/
def failingPlan : ShellPlan where
  shellClass := ⟨1, "Failing", .ofList
    [("precmd", BaseShell.member ["line"] false none fun _ =>
        .fail (.endOfInput "precmd")),
      ("postcmd", BaseShell.member ["output"] false none fun _ =>
        .fail (.badLine "postcmd" "postcmd")),
      ("do_list", BaseShell.member [] true none fun _ =>
        .fail (.unexplained "BadLine" "list"))], [BaseShell.shellClass]⟩
  options := []
  reader := some ⟨.script [.fault (.interrupt "")] false, none, 0, []⟩
  output := .stream
  prompt := some (.code (fun _ => .fail .noHome) none)
  extensions := []

theorem failingPlan_keeps : failingPlan.Keeps .ordinaryOnly where
  shellClass := by
    refine BaseShell.keeps_derived (fun _ _ _ => True.intro) ?_
    intro entry h
    rcases List.mem_cons.mp h with rfl | h
    · exact fun _ => ⟨rfl, rfl⟩
    · rcases List.mem_cons.mp h with rfl | h
      · exact fun _ => ⟨rfl, rfl⟩
      · obtain rfl := List.mem_singleton.mp h
        exact fun _ => ⟨rfl, rfl⟩
  source := fun _ _ => True.intro
  prompt := by
    intro p h
    cases h
    exact fun _ => ⟨rfl, rfl⟩
  extensions := by
    intro c h
    cases h

/-- It fails to rewrite any line, and does not call one bad. -/
theorem failingPlan_explains (hc : s.shell = some failingPlan.shellClass)
    (depth : Nat) : Explains k (executeWithin (depth + 1)) s := by
  intro s' hs' line f s'' he g
  have hd : failingPlan.shellClass.lookup? "precmd" =
      some (BaseShell.member ["line"] false none fun _ =>
        .fail (.endOfInput "precmd")) := rfl
  obtain ⟨rest, hcall⟩ :=
    callShell_function (hs'.shell_eq.trans hc) hd [line] rfl
  rw [hcall] at he
  cases he
  exact nofun

/-- Where everything fails that may, a line still comes to a value. -/
theorem runLine_returns_failing :
    ∃ s v s', start (executeWithin 1) failingPlan
        (.bare ⟨default, [], [("ls", .raised .noHome)]⟩ default default) =
      some (.ok (), s) ∧
      runLine (executeWithin 3) (.text "list") s = some (.ok v, s') := by
  obtain ⟨s, hstart⟩ : ∃ s, start (executeWithin 1) failingPlan
      (.bare ⟨default, [], [("ls", .raised .noHome)]⟩ default default) =
      some (.ok (), s) := ⟨_, rfl⟩
  have hworld : World.Keeps .ordinaryOnly
      ⟨default, [], [("ls", .raised .noHome)]⟩ := by
    intro entry h
    obtain rfl := List.mem_singleton.mp h
    exact ⟨rfl, rfl⟩
  have hcatalogue : Catalogue.Keeps .ordinaryOnly default :=
    OrderedMap.All.empty
  have hreached : s.Reached .ordinaryOnly :=
    .started failingPlan_keeps hworld hcatalogue hstart
  have hformats : Formats .ordinaryOnly (executeWithin 3) s :=
    .inherited 2 (start_shell hstart) rfl
  obtain ⟨v, s', he⟩ := runLine_returns (fun f h => h) hreached hformats
    (failingPlan_explains (start_shell hstart) 2) (.text "list")
  exact ⟨s, v, s', hstart, he⟩

/-- A shell that refuses every line with a bad line of a kind of its
    own. -/
def unexplainedPlan : ShellPlan :=
  { failingPlan with
    shellClass := ⟨1, "Unexplained", .ofList
      [("precmd", BaseShell.member ["line"] false none fun _ =>
          .fail (.unexplained "BadLine" "no"))], [BaseShell.shellClass]⟩
    prompt := none }

theorem unexplainedPlan_keeps : unexplainedPlan.Keeps .ordinaryOnly where
  shellClass := by
    refine BaseShell.keeps_derived (fun _ _ _ => True.intro) ?_
    intro entry h
    obtain rfl := List.mem_singleton.mp h
    exact fun _ => ⟨rfl, rfl⟩
  source := fun _ _ => True.intro
  prompt := by
    intro p h
    cases h
  extensions := by
    intro c h
    cases h

/-- A shell with a command that runs a session of its own, and a source
    that raises an exit. -/
def exitingPlan : ShellPlan :=
  { unexplainedPlan with
    shellClass := ⟨1, "Nested", .ofList
      [("do_again", BaseShell.member [] true none fun _ => .answer .run)],
      [BaseShell.shellClass]⟩
    reader := some ⟨.script [.fault (.exit "2")] false, none, 0, []⟩ }

/-- A line fails though its code raises ordinary faults only, where the
    shell does not say why the line is bad; and where a command lets through
    what the source of its own session raises. -/
theorem runLine_fails :
    (unexplainedPlan.Keeps .ordinaryOnly ∧
      ∃ s s', start (executeWithin 1) unexplainedPlan
          (.bare default default default) = some (.ok (), s) ∧
        runLine (executeWithin 3) (.text "list") s =
          some (.error (.noAttribute "BadLine" "reason"), s')) ∧
    ∃ s s', start (executeWithin 1) exitingPlan
        (.bare default default default) = some (.ok (), s) ∧
      runLine (executeWithin 3) (.text "again") s =
        some (.error (.exit "2"), s') :=
  ⟨⟨unexplainedPlan_keeps, _, _, rfl, rfl⟩, _, _, rfl, rfl⟩

end Run

end LineShell
