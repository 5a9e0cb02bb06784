import LineShell.Proofs.Environment.Overlay
import LineShell.Proofs.Session.Reachable
import LineShell.Proofs.Session.Replies

/-! # Scope — what a line sees of its overlay, and what is left of it

    What code sees of the environment is what is there when it is run and
    when it asks for something.  So a run is done once more by executors
    that come to nothing in any other environment than the one they are
    given (`Run.seeing`): the code that routes a line, and all that it
    calls in turn, is given the environment before the line with the
    overlay on it; what rewrites a line and its result is given the
    environment before the line; and every line within a line is treated
    likewise, to any depth.

    That nothing is written is a property of a run as well: it is the same
    as one that comes to nothing where an environment request changes
    something (`Run.unwriting`).  Overlays of lines are no such requests.

    `Run.runLine_scoped` says that a run in which nothing is written is
    one in which everything sees what it should, and that it leaves the
    environment as it was. -/

namespace LineShell

/-- Code of any kind. -/
def Conduct.anything : Conduct where
  asks _ := True
  raises _ := True
  hears _ := True
  plain _ := trivial
  causes _ _ := trivial

section Anything

theorem Program.keeps_anything (p : Program) : p.Keeps .anything := by
  induction p with
  | done v => trivial
  | fail f => trivial
  | request r next ih => exact ⟨trivial, fun a _ => ih a⟩
  | promptCode use code bound args next ihc ih =>
      exact ⟨ihc, fun v => ih (.ok v), fun f _ => ih (.error f)⟩

theorem Attribute.keeps_anything (a : Attribute) : a.Keeps .anything := by
  cases a with
  | function f => exact fun call => (f.body call).keeps_anything
  | data v => trivial

theorem Bound.keeps_anything (b : Bound) : b.Keeps .anything :=
  fun a _ => a.keeps_anything

theorem Class.keeps_anything (c : Class) : c.Keeps .anything :=
  fun name => (c.bind name).keeps_anything

/-- Every session keeps the conduct that allows for anything. -/
theorem Session.keeps_anything (s : Session) : s.Keeps .anything where
  world := by
    intro entry _
    cases entry.2 <;> trivial
  catalogue _ c _ := c.keeps_anything
  shell c _ := c.keeps_anything
  extensions _ _ _ i _ := i.member.keeps_anything
  registry :=
    ⟨fun _ h _ => h.member.keeps_anything, fun _ b _ => b.keeps_anything,
      fun _ b _ => b.keeps_anything⟩
  prompt := by
    cases s.prompt with
    | literal text => trivial
    | generated code args => exact fun args => (code args).keeps_anything
  source := by
    cases s.reader.source with
    | script items echo => exact fun f _ => trivial
    | keyboard => trivial

end Anything

/-- The texts that a line's values are overlaid as. -/
def Session.texts (s : Session) (values : OrderedMap Value) :
    OrderedMap String :=
  values.map fun v => v.display s.identity

namespace Run

variable {α : Type}

/-! ## Runs that stop -/

open Classical in
/-- A step that comes to nothing if it changes the environment. -/
noncomputable def sameVariables (step : Run α) : Run α :=
  ExceptT.mk fun s =>
    match step s with
    | some (r, s') => if s'.env = s.env then some (r, s') else none
    | none => none

open Classical in
/-- A step that comes to nothing in any other environment. -/
noncomputable def watch (env : Environment) (step : Run α) : Run α :=
  ExceptT.mk fun s => if s.env = env then step s else none

/-- Replies that come to nothing where code writes to the environment. -/
noncomputable def Replies.unwriting (execute : Executor) (frame : Frame) :
    Replies where
  request
    | .environment r => sameVariables (answer execute frame (.environment r))
    | r => answer execute frame r
  prompt := answerPromptCode execute

/-- Executes programs as far as they write nothing to the environment. -/
noncomputable def unwriting : Nat → Executor
  | 0 => fun _ _ => throw tooDeep
  | depth + 1 => fun frame p => performBy (.unwriting (unwriting depth) frame) p

section Seeing

variable (within : Environment → Executor)

/-- Routes a line in an environment: its routing is to see the overlay on
    it. -/
def dispatchFrom (env : Environment) (split : Line) (raw : Value) :
    Run Value := do
  let texts ← overlayTexts split.overlay
  withOverlay split.overlay
    (routing (within (env.overlay texts)) split raw)

/-- Runs a line: what rewrites it is to see the environment before it. -/
def runLineSeeing (line : Value) : Run Value := do
  let env := (← get).env
  runLineBy (within env) (dispatchFrom within env) line

/-- Runs a session: what stands between its lines is to see the
    environment before it. -/
def sessionSeeing : Run Unit := do
  let env := (← get).env
  sessionBy (within env) (runLineSeeing within)

theorem dispatchFrom_eq (env : Environment) (split : Line) (raw : Value)
    (s : Session) :
    dispatchFrom within env split raw s =
      withOverlay split.overlay
        (routing (within (env.overlay (s.texts split.overlay))) split raw)
        s := by
  have htexts : overlayTexts split.overlay s =
      some (.ok (s.texts split.overlay), s) := rfl
  rw [dispatchFrom, bind_ok htexts]

theorem runLineSeeing_eq (line : Value) (s : Session) :
    runLineSeeing within line s =
      runLineBy (within s.env) (dispatchFrom within s.env) line s := by
  rw [runLineSeeing, get_bind_eq]

theorem sessionSeeing_eq (s : Session) :
    sessionSeeing within s =
      sessionBy (within s.env) (runLineSeeing within) s := by
  rw [sessionSeeing, get_bind_eq]

/-- Answers a request of code that is to see an environment. -/
def answerSeeing (env : Environment) (frame : Frame) (r : Request) :
    Run Value :=
  withShell r.shellMember?
    (match r with
    | .runLine line => runLineSeeing within line
    | .dispatch split raw => dispatchFrom within env split raw
    | .run => do
        sessionSeeing within
        pure .null
    | r => answerAny (within env) frame r)

/-- Replies to code that is to see an environment. -/
noncomputable def Replies.seeing (env : Environment) (frame : Frame) :
    Replies where
  request r := watch env (answerSeeing within env frame r)
  prompt use code bound args :=
    watch env (answerPromptCode (within env) use code bound args)

end Seeing

/-- Executes programs as far as they are run, and ask, in an
    environment. -/
noncomputable def seeing : Nat → Environment → Executor
  | 0, _ => fun _ _ => throw tooDeep
  | depth + 1, env => fun frame p =>
      watch env (performBy (.seeing (seeing depth) env frame) p)

/-! ## Overlays -/

variable {s s' t : Session} {env : Environment}

/-- A step in an overlay is the step in the environment with the overlay on
    it, and after that the overlaid names are what they were. -/
theorem withOverlay_eq (values : OrderedMap Value) (step : Run α)
    (s : Session) :
    withOverlay values step s =
      Option.map
        (fun (result : Except Fault α × Session) =>
          (result.1, { result.2 with
            env := result.2.env.restore (s.env.save (s.texts values).names) }))
        (step { s with env := s.env.overlay (s.texts values) }) := by
  have henter : enterOverlay values s =
      some (.ok (s.env.save (s.texts values).names),
        { s with env := s.env.overlay (s.texts values) }) := rfl
  rw [withOverlay, bind_ok henter, andFinally]
  cases hstep : step { s with env := s.env.overlay (s.texts values) } with
  | none =>
      simp only [bind, ExceptT.bind, ExceptT.mk, StateT.bind, attempt,
        ExceptT.run, Functor.map, StateT.map, hstep, Option.bind]
      rfl
  | some result =>
      obtain ⟨r, s₁⟩ := result
      rw [bind_ok (attempt_eq hstep)]
      cases r <;> rfl

/-- A step that leaves the variables of the overlay alone leaves those of
    the session alone. -/
theorem withOverlay_undone {values : OrderedMap Value} {step : Run α}
    {s t : Session} {r : Except Fault α}
    (h : step { s with env := s.env.overlay (s.texts values) } =
      some (r, { t with env := s.env.overlay (s.texts values) })) :
    withOverlay values step s = some (r, { t with env := s.env }) := by
  have hleave : (s.env.overlay (s.texts values)).restore
      (s.env.save (s.texts values).names) = s.env :=
    s.env.restore_enter (s.texts values)
  rw [withOverlay_eq, h]
  exact congrArg (fun env => some (r, { t with env := env })) hleave

/-- The fault of such a step is handled as if the overlay were entered
    after it. -/
theorem withOverlay_contain {values : OrderedMap Value} {step : Run α}
    {handle : Fault → Run α} {s t : Session} {f : Fault}
    (h : step { s with env := s.env.overlay (s.texts values) } =
      some (.error f, { t with env := s.env.overlay (s.texts values) }))
    (hf : f.isSignal = false) (henv : t.env = s.env)
    (hme : t.identity = s.identity) :
    withOverlay values (contain step handle) s =
      withOverlay values (handle f) t := by
  have htexts : t.texts values = s.texts values := by
    rw [Session.texts, Session.texts, hme]
  rw [withOverlay_eq, withOverlay_eq, contain_error h hf, htexts, henv]

/-! ## Nothing is written -/

theorem of_sameVariables {step : Run α} {r : Except Fault α}
    (h : sameVariables step s = some (r, s')) :
    step s = some (r, s') ∧ s'.env = s.env := by
  rw [sameVariables, ExceptT.mk] at h
  cases hstep : step s with
  | none =>
      rw [hstep] at h
      cases h
  | some result =>
      obtain ⟨r₁, s₁⟩ := result
      rw [hstep] at h
      dsimp only at h
      split at h
      · rename_i heq
        cases h
        exact ⟨rfl, heq⟩
      · cases h

theorem watch_eq (step : Run α) (h : s.env = env) :
    watch env step s = step s := by
  rw [watch, ExceptT.mk]
  exact if_pos h

/-! ## A run in which nothing is written is a run -/

section Same

/-- The relation of a session to itself. -/
theorem free_eq : Bond.Free .anything Eq where
  core := by
    rintro s _ rfl
    rfl
  keeps {s _} _ := s.keeps_anything
  update := by
    rintro s _ f _ rfl
    rfl
  amended := by
    rintro s _ name change rfl
    rfl
  env := by
    rintro s _ env rfl
    rfl

theorem mobile_eq : Mobile Eq := by
  rintro s _ p rfl
  rfl

theorem Agree.refl (step : Run α) : Agree Eq step step := by
  rintro s _ rfl r s' h
  exact ⟨s', h, rfl⟩

theorem accord_eq {x y : Executor}
    (h : ∀ frame p, Agree Eq (x frame p) (y frame p)) :
    Accord .anything Eq x y :=
  .of_passing free_eq.toBond (fun frame p _ _ => h frame p)
    (.of_same (by rintro s _ rfl; rfl))

/-- What a program comes to without writing to the environment, it comes
    to. -/
theorem unwriting_agree (depth : Nat) (frame : Frame) (p : Program) :
    Agree Eq (unwriting depth frame p) (executeWithin depth frame p) := by
  induction depth generalizing frame p with
  | zero => exact .throw _
  | succ depth ih =>
      have ha := accord_eq ih
      have hframe : frame.Keeps .anything := fun a _ => a.keeps_anything
      show Agree Eq (performBy _ p) (perform _ frame p)
      rw [perform_eq]
      refine performBy_agree ⟨?_, ?_, ?_, ?_⟩ p.keeps_anything
      · intro r _
        have hother := fun h => answer_agree_free free_eq ha hframe
          (r := r) (.of_memory (by rintro s _ rfl; rfl) r) h
          fun _ => session_agree free_eq ha mobile_eq
        cases r with
        | environment r =>
            rintro s _ rfl reply s' he
            exact ⟨s', (of_sameVariables he).1, rfl⟩
        | register className name twice => exact .refl _
        | block name => exact .refl _
        | report => exact .refl _
        | _ => exact hother rfl
      · intro r _ s t _ reply s' _
        cases reply with
        | ok v => trivial
        | error f => exact Or.inl trivial
      · intro use code bound args hk
        exact answerPromptCode_agree free_eq.toBond ha use hk bound args
      · intros
        trivial

end Same

/-! ## In such a run everything sees what it should -/

section Staying

/-- The relation of a session in an environment to itself. -/
def Staying (env : Environment) (s t : Session) : Prop :=
  s = t ∧ s.env = env

theorem mobile_staying (env : Environment) : Mobile (Staying env) := by
  rintro s _ p ⟨rfl, henv⟩
  exact ⟨rfl, henv⟩

theorem bond_staying (env : Environment) : Bond .anything (Staying env) where
  core := by
    rintro s _ ⟨rfl, _⟩
    rfl
  keeps {s _} _ := s.keeps_anything
  update := by
    rintro s _ f hf ⟨rfl, henv⟩
    exact ⟨rfl, (hf.env _).trans henv⟩
  amended := by
    rintro s _ name change ⟨rfl, henv⟩
    exact ⟨rfl, henv⟩

/-- A step that leaves the environment alone. -/
theorem Agree.staying {step : Run α}
    (h : ∀ s r s', step s = some (r, s') → s'.env = s.env) :
    Agree (Staying env) step step := by
  rintro s _ ⟨rfl, henv⟩ r s' he
  exact ⟨s', he, rfl, (h _ r s' he).trans henv⟩

/-- Watching a step that is taken in the environment changes nothing. -/
theorem Agree.watch {step₁ step₂ : Run α}
    (h : Agree (Staying env) step₁ step₂) :
    Agree (Staying env) step₁ (watch env step₂) := by
  rintro s _ ⟨rfl, henv⟩ r s' he
  rw [watch_eq step₂ henv]
  exact h _ _ ⟨rfl, henv⟩ r s' he

theorem registerExtension_env {c : Class} {serial : Nat}
    {name : Option String} {r : Except Fault String}
    (h : registerExtension c serial name s = some (r, s')) :
    s'.env = s.env := by
  obtain ⟨_, _, _, rfl⟩ := registerExtension_frame h
  rfl

/-- Registering leaves the environment alone. -/
theorem register_staying (className : String) (name : Option String)
    (twice : Bool) :
    Agree (Staying env)
      (do registerNew (← classOf className) name twice)
      (do registerNew (← classOf className) name twice) := by
  refine register_agree (V := Whatever) (W := Whatever) (bond_staying env)
    (fun _ _ _ _ _ => trivial) (fun _ _ _ => trivial) (.staying ?_) ?_
  · intro s r s' h
    cases h
    rfl
  · intro c serial _ _
    exact .staying fun _ _ _ => registerExtension_env

variable {execute : Executor} {within : Environment → Executor}
variable (hc : ∀ env frame p,
  Agree (Staying env) (execute frame p) (within env frame p))
include hc

theorem accord_staying (env : Environment) :
    Accord .anything (Staying env) execute (within env) :=
  .of_passing (bond_staying env) (fun frame p _ _ => hc env frame p)
    (.of_same (by rintro s _ ⟨rfl, _⟩; rfl))

/-- The routing of a line sees the overlay, and leaving it brings back the
    environment before the line. -/
theorem dispatch_sees (split : Line) (raw : Value) :
    Agree (Staying env) (dispatch execute split raw)
      (dispatchFrom within env split raw) := by
  rintro s _ ⟨rfl, rfl⟩ r s' he
  rw [dispatch_eq, withOverlay_eq, Option.map_eq_some_iff] at he
  obtain ⟨⟨r₁, s₁⟩, hrouted, heq⟩ := he
  obtain ⟨rfl, rfl⟩ := Prod.mk.inj heq
  let env := s.env.overlay (s.texts split.overlay)
  obtain ⟨t, hsees, rfl, henv⟩ :=
    routing_agree (bond_staying env) (accord_staying hc env) split raw
      { s with env } _ ⟨rfl, rfl⟩ _ _ hrouted
  refine ⟨_, ?_, rfl, ?_⟩
  · rw [dispatchFrom_eq, withOverlay_eq, hsees, Option.map_some]
  · show s₁.env.restore _ = s.env
    rw [henv]
    exact s.env.restore_enter (s.texts split.overlay)

theorem runLine_sees (line : Value) :
    Agree (Staying env) (runLine execute line)
      (runLineSeeing within line) := by
  rintro s _ ⟨rfl, rfl⟩
  rw [runLine_eq, runLineSeeing_eq]
  exact runLineBy_agree (bond_staying s.env) (accord_staying hc s.env)
    (dispatch_sees hc) line s s ⟨rfl, rfl⟩

theorem session_sees :
    Agree (Staying env) (session execute) (sessionSeeing within) := by
  rintro s _ ⟨rfl, rfl⟩
  rw [session_eq, sessionSeeing_eq]
  exact sessionBy_agree (bond_staying s.env) (accord_staying hc s.env)
    (mobile_staying s.env) (runLine_sees hc) s s ⟨rfl, rfl⟩

/-- A request is answered as code in the environment is answered. -/
theorem answer_sees (frame : Frame) (r : Request) :
    Agree (Staying env) ((Replies.unwriting execute frame).request r)
      (answerSeeing within env frame r) := by
  have hb := bond_staying env
  cases hr : r.isPlain with
  | true =>
      have hplain := answer_agree hb (accord_staying hc env)
        (fun a _ => a.keeps_anything : frame.Keeps .anything)
        (.of_memory (by rintro s _ ⟨rfl, _⟩; rfl) r) hr
      cases r with
      | runLine line => cases hr
      | dispatch split raw => cases hr
      | run => cases hr
      | environment r => cases hr
      | _ => exact hplain
  | false =>
      cases r with
      | runLine line => exact withShell_agree hb (runLine_sees hc line) _
      | dispatch split raw =>
          exact withShell_agree hb (dispatch_sees hc split raw) _
      | run => exact withShell_agree hb (.giving (session_sees hc) _) _
      | environment r =>
          rintro s _ ⟨rfl, henv⟩ reply s' he
          obtain ⟨hanswer, hsame⟩ := of_sameVariables he
          exact ⟨s', hanswer, rfl, hsame.trans henv⟩
      | register className name twice =>
          exact withShell_agree hb (register_staying _ _ _) _
      | block name =>
          refine withShell_agree hb (.staying ?_) _
          intro s reply s' h
          cases h
          rfl
      | report =>
          refine withShell_agree hb (.staying ?_) _
          intro s reply s' h
          cases h
          rfl
      | _ => cases hr

end Staying

/-- What a program comes to in an environment without writing to it, it
    comes to when it is to see that environment. -/
theorem unwriting_sees (depth : Nat) (env : Environment) (frame : Frame)
    (p : Program) :
    Agree (Staying env) (unwriting depth frame p)
      (seeing depth env frame p) := by
  induction depth generalizing env frame p with
  | zero => exact .throw _
  | succ depth ih =>
      refine .watch (performBy_agree ⟨?_, ?_, ?_, ?_⟩ p.keeps_anything)
      · intro r _
        exact .watch (answer_sees ih frame r)
      · intro r _ s t _ reply s' _
        cases reply with
        | ok v => trivial
        | error f => exact Or.inl trivial
      · intro use code bound args hk
        exact .watch (answerPromptCode_agree (bond_staying env)
          (accord_staying ih env) use hk bound args)
      · intros
        trivial

/-! ## Lines -/

/-- The routing of a line starts in the environment before the line with
    the overlay on it, whatever its code does; after it the overlaid names
    are what they were, and all others are what the code left.  And if
    nothing is written to the environment on the way, then everything that
    is run sees the environment that it should, at every depth, and the
    line leaves the environment as it was, however it ends. -/
theorem runLine_scoped (depth : Nat) (s : Session) :
    (∀ split raw r s', dispatch (executeWithin depth) split raw s =
        some (r, s') →
      ∃ left : Session,
        routing (executeWithin depth) split raw
          { s with env := s.env.overlay (s.texts split.overlay) } =
            some (r, left) ∧
        s' = { left with env := s'.env } ∧
        ∀ name, s'.env.get? name =
          if name ∈ split.overlay.names then s.env.get? name
          else left.env.get? name) ∧
    (∀ line r s', runLine (unwriting depth) line s = some (r, s') →
      runLine (executeWithin depth) line s = some (r, s') ∧
      runLineSeeing (seeing depth) line s = some (r, s') ∧
      s'.env = s.env) := by
  constructor
  · intro split raw r s' h
    rw [dispatch_eq, withOverlay_eq, Option.map_eq_some_iff] at h
    obtain ⟨⟨r, left⟩, hrouted, heq⟩ := h
    obtain ⟨rfl, rfl⟩ := Prod.mk.inj heq
    refine ⟨left, hrouted, rfl, ?_⟩
    intro name
    have hnames : (s.texts split.overlay).names = split.overlay.names :=
      List.map_map.trans rfl
    rw [← hnames]
    exact s.env.get?_restore left.env _ name
  · intro line r s' h
    obtain ⟨_, hsees, rfl, henv⟩ :=
      runLine_sees (unwriting_sees depth) line s s ⟨rfl, rfl⟩ r s' h
    obtain ⟨_, hruns, rfl⟩ := runLine_agree free_eq
      (accord_eq (unwriting_agree depth)) line s s rfl r s' h
    exact ⟨hruns, hsees, henv⟩

/-- A shell with a variable, and with a program to run. -/
def launchingSession : Session :=
  { Session.bare ⟨default, [("A", "0")], [("p", .finished (some "out") none 0)]⟩
      default default with
    shell := some BaseShell.shellClass }

/-- A program that is run with the variable hidden and another one set. -/
theorem runLine_scoped_program :
    (∃ r s', dispatch (executeWithin 2)
        ⟨"!p", .ofList [("A", .text "1")], []⟩ .null launchingSession =
          some (r, s') ∧
      s'.env.get? "A" = launchingSession.env.get? "A") ∧
    ∃ r s', runLine (unwriting 2) (.text "A=1 B=2 !p") launchingSession =
        some (r, s') ∧
      runLineSeeing (seeing 2) (.text "A=1 B=2 !p") launchingSession =
        some (r, s') ∧
      s'.env = launchingSession.env := by
  obtain ⟨hany, hline⟩ := runLine_scoped 2 launchingSession
  constructor
  · obtain ⟨⟨r, s'⟩, hd⟩ := Option.isSome_iff_exists.mp
      (by decide +kernel : (dispatch (executeWithin 2)
        ⟨"!p", .ofList [("A", .text "1")], []⟩ .null
        launchingSession).isSome = true)
    obtain ⟨_, _, _, hnames⟩ := hany _ _ r s' hd
    exact ⟨r, s', hd, hnames "A"⟩
  · obtain ⟨⟨r, s'⟩, hr⟩ := Option.isSome_iff_exists.mp
      (by decide +kernel : (runLine (unwriting 2) (.text "A=1 B=2 !p")
        launchingSession).isSome = true)
    obtain ⟨_, hsees, henv⟩ := hline _ r s' hr
    exact ⟨r, s', hr, hsees, henv⟩

end Run

end LineShell
