import LineShell.Session.Help
import LineShell.Proofs.Session.Dialogue

/-! # Courses — what a session does on the way, in order

    The *course* of a step is the step together with the list of what the
    session does on the way: the calls of code, each with what it is
    called for; reading, splitting and writing the history; the overlays
    that are entered and left; and the moves from phase to phase.  Every
    such *deed* is listed with the fault it ended in, if it did, and the
    session it left.  What code does in turn, while it is called, is not
    in the list: a line within a line has a course of its own.

    The functions of a session are written once more as courses, each deed
    beside the step that it stands for. -/

namespace LineShell

/-- Where something is done: the stage, the title that a fault of it is
    answered under, and the line. -/
structure Place where
  stage : Stage
  title : String
  line : Value
  deriving Inhabited

/-- What an observer is told. -/
structure Report where
  stage : String
  fault : Fault
  line : Value

/-- Something that a session does on the way. -/
inductive Doing where
  /-- Calls a member of the shell, at a place where its faults are
      answered. -/
  | method (place : Place) (name : String) (args : List Value)
  /-- Calls the handler of a command. -/
  | handler (place : Place) (b : Bound) (args : List Value)
  /-- Splits a rewritten line. -/
  | split (place : Place) (line : Value)
  /-- Calls an implementation of a hook that is no observer. -/
  | hook (hook : String) (i : Implementation) (given : List (String × Value))
  /-- Tells an observer. -/
  | observer (report : Report) (i : Implementation)
  /-- Asks the shell for the text of a fault. -/
  | format (f : Fault)
  /-- Asks the producer of a help topic. -/
  | producer (topic : String) (b : Bound) (args : List Value)
  /-- Renders the prompt. -/
  | prompt (p : Prompt)
  /-- Calls a member of the shell anywhere else. -/
  | plain (name : String) (args : List Value)
  /-- Reads a line at a prompt. -/
  | read (prompt : Value)
  | persist
  | entered (saved : Environment.Saved)
  | left (saved : Environment.Saved)
  | moved (p : Phase)
  deriving Inhabited

/-- Something that was done, the fault it ended in, and the session it
    left. -/
structure Deed where
  doing : Doing
  fault? : Option Fault
  left : Session
  deriving Inhabited

/-- A step, and what is done on the way. -/
def Course (α : Type) : Type :=
  Session → Option ((Except Fault α × Session) × List Deed)

/-- The fault that a result is. -/
def faultOf? {α : Type} : Except Fault α → Option Fault
  | .ok _ => none
  | .error f => some f

namespace Course

variable {α β : Type}

/-- A step in which nothing is done that is listed. -/
def own (step : Run α) : Course α := fun s =>
  (step s).map fun result => (result, [])

/-- A step that is something that is done. -/
def watch (doing : Doing) (step : Run α) : Course α := fun s =>
  (step s).map fun result =>
    (result, [⟨doing, faultOf? result.1, result.2⟩])

/-- One course after the other. -/
def andThen (c : Course α) (next : α → Course β) : Course β := fun s =>
  match c s with
  | none => none
  | some ((.error f, s'), deeds) => some ((.error f, s'), deeds)
  | some ((.ok a, s'), deeds) =>
      (next a s').map fun result => (result.1, deeds ++ result.2)

instance : Monad Course where
  pure a := own (pure a)
  bind := andThen

/-- Runs a course and keeps its fault as a value. -/
def attempt (c : Course α) : Course (Except Fault α) := fun s =>
  (c s).map fun result => ((.ok result.1.1, result.1.2), result.2)

/-- Runs a course and handles its ordinary faults; signals pass. -/
def contain (c : Course α) (handle : Fault → Course α) : Course α := do
  match ← c.attempt with
  | .ok a => pure a
  | .error f => if f.isSignal then own (throw f) else handle f

/-- Runs a course, and then another whatever the first came to. -/
def andFinally (c : Course α) (last : Course Unit) : Course α := do
  let result ← c.attempt
  last
  own (Run.ofAnswer result)

/-- Does the same for each of some items. -/
def forEach {γ : Type} (each : γ → Course Unit) : List γ → Course Unit
  | [] => pure ()
  | c :: rest => do
      each c
      forEach each rest

/-- The step without the list. -/
def run (c : Course α) : Run α := ExceptT.mk fun s =>
  (c s).map Prod.fst

/-! ## Without the list -/

@[simp] theorem run_own (step : Run α) : (own step).run = step := by
  funext s
  show ((step s).map _).map Prod.fst = step s
  cases step s <;> rfl

@[simp] theorem run_watch (doing : Doing) (step : Run α) :
    (watch doing step).run = step := by
  funext s
  show ((step s).map _).map Prod.fst = step s
  cases step s <;> rfl

@[simp] theorem run_pure (a : α) :
    (pure a : Course α).run = pure a :=
  run_own _

@[simp] theorem run_bind (c : Course α) (next : α → Course β) :
    (c >>= next).run = c.run >>= fun a => (next a).run := by
  funext s
  have hc : c.run s = (c s).map Prod.fst := rfl
  show (andThen c next s).map Prod.fst = _
  rw [andThen]
  cases h : c s with
  | none =>
      rw [h] at hc
      simp only [bind, ExceptT.bind, ExceptT.mk, StateT.bind, hc,
        Option.map_none, Option.bind]
  | some result =>
      obtain ⟨⟨r, s'⟩, deeds⟩ := result
      rw [h] at hc
      cases r with
      | error f => exact (Run.bind_error hc).symm
      | ok a =>
          rw [Run.bind_ok hc]
          show ((next a s').map _).map Prod.fst = (next a s').map Prod.fst
          rw [Option.map_map]
          rfl

@[simp] theorem run_attempt (c : Course α) :
    c.attempt.run = c.run.attempt := by
  funext s
  have hc : c.run s = (c s).map Prod.fst := rfl
  show ((c s).map _).map Prod.fst = _
  cases h : c s with
  | none =>
      rw [h] at hc
      simp only [Run.attempt, ExceptT.mk, ExceptT.run, Functor.map,
        StateT.map, hc, Option.map_none, bind, Option.bind]
  | some result =>
      obtain ⟨⟨r, s'⟩, deeds⟩ := result
      rw [h] at hc
      exact (Run.attempt_eq hc).symm

@[simp] theorem run_contain (c : Course α) (handle : Fault → Course α) :
    (c.contain handle).run = c.run.contain fun f => (handle f).run := by
  rw [contain, run_bind, run_attempt, Run.contain]
  congr 1
  funext r
  cases r with
  | ok a => exact run_pure a
  | error f =>
      dsimp only
      split
      · exact run_own _
      · rfl

@[simp] theorem run_andFinally (c : Course α) (last : Course Unit) :
    (c.andFinally last).run = c.run.andFinally last.run := by
  simp only [andFinally, run_bind, run_attempt, run_own]
  rfl

@[simp] theorem run_forEach {γ : Type} (each : γ → Course Unit)
    (items : List γ) :
    (forEach each items).run = items.forM fun c => (each c).run := by
  induction items with
  | nil => exact run_pure ()
  | cons c rest ih =>
      rw [forEach, run_bind, ih]
      rfl

/-! ## What a course came to -/

theorem of_own {step : Run α} {s s' : Session} {r : Except Fault α}
    {deeds : List Deed} (h : own step s = some ((r, s'), deeds)) :
    step s = some (r, s') ∧ deeds = [] := by
  obtain ⟨result, hstep, heq⟩ := Option.map_eq_some_iff.mp h
  cases heq
  exact ⟨hstep, rfl⟩

theorem of_watch {doing : Doing} {step : Run α} {s s' : Session}
    {r : Except Fault α} {deeds : List Deed}
    (h : watch doing step s = some ((r, s'), deeds)) :
    step s = some (r, s') ∧ deeds = [⟨doing, faultOf? r, s'⟩] := by
  obtain ⟨result, hstep, heq⟩ := Option.map_eq_some_iff.mp h
  cases heq
  exact ⟨hstep, rfl⟩

/-- A sequence that ended did so at its first part, or that came to a
    value and the rest ended. -/
theorem of_bind {c : Course α} {next : α → Course β} {s s' : Session}
    {r : Except Fault β} {deeds : List Deed}
    (h : (c >>= next) s = some ((r, s'), deeds)) :
    (∃ f, r = .error f ∧ c s = some ((.error f, s'), deeds)) ∨
      ∃ a s₁ first rest, c s = some ((.ok a, s₁), first) ∧
        next a s₁ = some ((r, s'), rest) ∧ deeds = first ++ rest := by
  replace h : andThen c next s = some ((r, s'), deeds) := h
  rw [andThen] at h
  split at h
  · cases h
  · rename_i f s₁ first hc
    cases h
    exact Or.inl ⟨f, rfl, hc⟩
  · rename_i a s₁ first hc
    obtain ⟨result, hnext, heq⟩ := Option.map_eq_some_iff.mp h
    obtain ⟨⟨r', s''⟩, rest⟩ := result
    cases heq
    exact Or.inr ⟨a, s₁, first, rest, hc, hnext, rfl⟩

theorem of_attempt {c : Course α} {s s' : Session}
    {r : Except Fault (Except Fault α)} {deeds : List Deed}
    (h : c.attempt s = some ((r, s'), deeds)) :
    ∃ result, r = .ok result ∧ c s = some ((result, s'), deeds) := by
  obtain ⟨⟨⟨r', s''⟩, deeds'⟩, hc, heq⟩ := Option.map_eq_some_iff.mp h
  cases heq
  exact ⟨r', rfl, hc⟩

/-- What follows a course whose result is kept as a value follows it
    whatever it came to. -/
theorem of_attempt_bind {c : Course α} {next : Except Fault α → Course β}
    {s s' : Session} {r : Except Fault β} {deeds : List Deed}
    (h : (c.attempt >>= next) s = some ((r, s'), deeds)) :
    ∃ result s₁ first rest, c s = some ((result, s₁), first) ∧
      next result s₁ = some ((r, s'), rest) ∧ deeds = first ++ rest := by
  rcases of_bind h with ⟨f, rfl, hc⟩ | ⟨a, s₁, first, rest, hc, hnext, rfl⟩
  · obtain ⟨result, heq, _⟩ := of_attempt hc
    cases heq
  · obtain ⟨result, heq, hc⟩ := of_attempt hc
    cases heq
    exact ⟨a, s₁, first, rest, hc, hnext, rfl⟩

/-- A course ends as its step does. -/
theorem of_run {c : Course α} {step : Run α} (hc : c.run = step)
    {s s' : Session} {r : Except Fault α} (h : step s = some (r, s')) :
    ∃ deeds, c s = some ((r, s'), deeds) := by
  subst hc
  obtain ⟨⟨result, deeds⟩, hcourse, heq⟩ := Option.map_eq_some_iff.mp h
  cases heq
  exact ⟨deeds, hcourse⟩

/-- So does a step as its course. -/
theorem run_eq {c : Course α} {step : Run α} (hc : c.run = step)
    {s s' : Session} {r : Except Fault α} {deeds : List Deed}
    (h : c s = some ((r, s'), deeds)) : step s = some (r, s') := by
  subst hc
  show (c s).map Prod.fst = _
  rw [h]
  rfl

/-! ## The functions of a session -/

section Functions

variable (execute : Executor)

/-! ### Hooks -/

/-- Tells one observer. -/
def notifyOne (report : Report) (i : Implementation) : Course Unit :=
  contain
    (watch (.observer report i) do
      let _ ← Run.callImplementation execute i
        [("stage", .text report.stage), ("error", .fault report.fault),
          ("line", report.line)])
    fun _ => own (Run.record [.observerFailed report.stage i.extension])

/-- Tells all observers, in the order of their chain. -/
def notify (report : Report) : Course Unit := do
  let s ← own get
  forEach (notifyOne execute report) (s.extensions.chain "on_error")

/-- Runs one implementation; what it answers, or nothing. -/
def runImplementation (hook : String) (i : Implementation)
    (given : List (String × Value)) : Course Value :=
  contain
    (watch (.hook hook i given) (Run.callImplementation execute i given))
    fun f => do
      own (Run.record [.hookFailed hook i.extension])
      notify execute ⟨s!"{hook}:{i.extension}", f, Run.lineAmong given⟩
      pure .null

/-- Runs implementations until one answers. -/
def firstAnswer (hook : String) (given : List (String × Value)) :
    List Implementation → Course Value
  | [] => pure .null
  | i :: rest => do
      let v ← runImplementation execute hook i given
      if v.isNull then firstAnswer hook given rest else pure v

/-- Lets every implementation rewrite a value. -/
def rewrite (hook key : String) (given : List (String × Value))
    (value : Value) : List Implementation → Course Value
  | [] => pure value
  | i :: rest => do
      let v ← runImplementation execute hook i
        ((key, value) :: given.filter fun pair => pair.1 != key)
      rewrite hook key given (if v.isNull then value else v) rest

/-- The first answer of a hook. -/
def callFirst (hook : String) (given : List (String × Value)) :
    Course Value := do
  let s ← own get
  firstAnswer execute hook given (s.extensions.chain hook).reverse

/-- What the chain of a hook makes of a value. -/
def callChain (hook key : String) (value : Value)
    (given : List (String × Value)) : Course Value := do
  let s ← own get
  rewrite execute hook key given value (s.extensions.chain hook)

/-- The first answer of a hook, or what the member of the shell answers
    that stands in for it. -/
def firstResult (place : Place) (hook : String) (args : List Value)
    (given : List (String × Value)) : Course Value := do
  let shell ← own Run.shellParam
  let v ← callFirst execute hook (shell :: given)
  if v.isNull then
    watch (.method place hook args) (Run.callShell execute hook args)
  else pure v

/-! ### Lines -/

/-- Reports a fault of a place. -/
def reportFault (place : Place) (f : Fault) : Course Value := do
  let whole := Fault.inCommand place.title f
  own (Run.record [.commandFailed place.title])
  notify execute ⟨place.stage.name, whole, place.line⟩
  watch (.format whole) (Run.formatFault execute whole)

/-- Answers a fault of a place. -/
def answerFault (place : Place) (f : Fault) : Course Value :=
  match f.textFault? with
  | some cause => own (throw cause)
  | none => reportFault execute place f

/-- Takes a route. -/
def follow (place : Place) (line : Line) : Route → Course Value
  | .empty => firstResult execute place "emptycommand" [] []
  | .quit =>
      watch (.method place "quit" []) (Run.callShell execute "quit" [])
  | .help =>
      watch (.method place "help" line.args)
        (Run.callShell execute "help" line.args)
  | .escape argv =>
      watch (.method place "shell_escape" argv)
        (Run.callShell execute "shell_escape" argv)
  | .handler b =>
      watch (.handler place b line.args)
        (Run.callBound execute b (.ofArgs line.args))
  | .unknown =>
      firstResult execute place "default" (.text line.command :: line.args)
        [("command", .text line.command), ("args", .list line.args)]

/-- Runs a course in an overlay. -/
def withOverlay (values : OrderedMap Value) (c : Course α) :
    Course α := do
  let saved ← own (Run.enterOverlay values)
  watch (.entered saved) (pure ())
  c.andFinally (watch (.left saved) (Run.leaveOverlay saved))

/-- Routes a line within its overlay. -/
def dispatch (line : Line) (raw : Value) : Course Value :=
  let place : Place := ⟨.handler, line.command, raw⟩
  withOverlay line.overlay
    (contain
      (do
        let s ← own get
        follow execute place line (s.registry.route line))
      (answerFault execute place))

/-- Splits a line. -/
def splitLine (line : Value) : Run Line := do
  Run.ofAnswer (Line.ofValue (← Run.identity) line)

/-- A line, rewritten and split. -/
def readRewritten (place : Place) (line : Value) : Course Line := do
  let line ← watch (.method place "precmd" [line])
    (Run.callShell execute "precmd" [line])
  let shell ← own Run.shellParam
  let line ← callChain execute "precmd" "line" line [shell]
  watch (.split place line) (splitLine line)

/-- A result as the shell and the hooks rewrite it. -/
def rewriteResult (result line : Value) : Course Value := do
  let place : Place := ⟨.postcmd, Stage.postcmd.name, line⟩
  match ← (watch (.method place "postcmd" [result])
      (Run.callShell execute "postcmd" [result])).attempt with
  | .ok result =>
      let shell ← own Run.shellParam
      callChain execute "postcmd" "output" result [shell]
  | .error f =>
      if f.isSignal then own (throw f) else answerFault execute place f

/-- Answers the fault of a line that was not read. -/
def answerUnread (place : Place) (f : Fault) : Course Value :=
  match f.lineReason? with
  | some told => do
      let (reason, shown) ← own (Run.ofAnswer told)
      own (Run.record [.badLine reason shown])
      watch (.format f) (Run.formatFault execute f)
  | none =>
      if f.isSignal then own (throw f) else answerFault execute place f

/-- The result of a line before it is rewritten. -/
def lineResult (line : Value) : Course Value := do
  let place : Place := ⟨.precmd, Stage.precmd.name, line⟩
  match ← (readRewritten execute place line).attempt with
  | .ok split => dispatch execute split line
  | .error f => answerUnread execute place f

/-- Runs one line. -/
def runLine (line : Value) : Course Value := do
  let result ← lineResult execute line
  rewriteResult execute result line

/-! ### Help -/

/-- What a producer says, or that there is no help. -/
def helpFrom (b : Bound) (topic : String) (args : List Value) :
    Course String := do
  let v ← contain
    (watch (.producer topic b args) (Run.callBound execute b (.ofArgs args)))
    fun _ => do
      own (Run.record [.helpFailed topic])
      pure .null
  if v.isNull then pure (noHelp topic)
  else do
    let me ← own Run.identity
    pure (v.display me)

/-- What is said about a topic. -/
def helpTopic (topic : Value) (args : List Value) : Course String := do
  let s ← own get
  let shown := topic.display s.identity
  if topic.isUnhashable then
    own (throw (.mismatch (.unhashable (topic.kindName s.identity))))
  else
    match topic.asText?.bind s.registry.helper? with
    | some (.member b) => helpFrom execute b shown args
    | some (.doc text) => pure text
    | none => pure (noHelp shown)

/-- The answer of the help system. -/
def helpText : List Value → Course String
  | [] => own (Run.helpText execute [])
  | topic :: args => helpTopic execute topic args

/-! ### Sessions -/

/-- Renders the prompt of the shell. -/
def renderPrompt : Course Value := do
  let s ← own get
  contain (watch (.prompt s.prompt) (Run.render execute s.prompt))
    fun _ => do
      let me ← own Run.identity
      own (Run.record [.promptFailed me.className])
      watch (.plain "default_prompt" [])
        (Run.callShell execute "default_prompt" [])

/-- Writes a value through the shell, unless it is missing. -/
def emitPresent (v : Value) : Course Unit :=
  if v.isNull then pure ()
  else watch (.plain "emit" [v]) (Run.emit execute v)

/-- Prompts and reads. -/
def promptedLine : Course String := do
  let prompt ← renderPrompt execute
  watch (.read prompt) (Run.readLine prompt "")

/-- Reads the next line at a prompt, or finds that the input has ended. -/
def nextLine : Course (Option String) := do
  match ← (promptedLine execute).attempt with
  | .ok line => pure (some line)
  | .error (.endOfInput _) => do
      own (Run.record [.endOfInput])
      pure none
  | .error f => own (throw f)

/-- One turn of the loop. -/
def turn : Course Run.Turn := do
  match ← nextLine execute with
  | none => pure .ended
  | some line => do
      let result ← runLine execute (.text line)
      emitPresent execute result
      let s ← own get
      pure (if s.quitRequested then .ended else .again)

/-- At most so many turns. -/
def turns : Nat → Course Unit
  | 0 => own Run.outOfTurns
  | n + 1 => do
      match ← turn execute with
      | .ended => pure ()
      | .again => turns n

/-- The turns of a session that was not asked to stop before them. -/
def turnsUnlessStopped : Course Unit := do
  let s ← own get
  if s.quitRequested then pure ()
  else turns execute (s.reader.remaining + 1)

/-- The turns of a session, up to an interrupt. -/
def conversation : Course Unit := do
  match ← (turnsUnlessStopped execute).attempt with
  | .ok () => pure ()
  | .error (.interrupt _) => own (Run.record [.interrupted])
  | .error f => own (throw f)

/-- Says what the shell says at a stage, if anything. -/
def sayAt (stage : Stage) : Course Unit := do
  let place : Place := ⟨stage, stage.name, .null⟩
  let v ← contain (firstResult execute place stage.name [] [])
    (answerFault execute place)
  emitPresent execute v

/-- Moves to a phase. -/
def setPhase (p : Phase) : Course Unit :=
  watch (.moved p) (Run.setPhase p)

/-- Takes leave. -/
def takeLeave : Course Unit := do
  setPhase .quitting
  sayAt execute .outro
  watch .persist Run.persist
  setPhase .terminated

/-- Runs a session; one that is over is not run again. -/
def session : Course Unit := do
  let s ← own get
  if s.phase == .terminated then
    own (Run.record [.runAfterEnd s.identity.className])
  else do
    watch (.moved .running)
      (modify fun s => { s with phase := .running, quitRequested := false })
    sayAt execute .intro
    conversation execute
    takeLeave execute

end Functions

/-! ## Overlays -/

/-- What is done in an overlay is done between entering and leaving it,
    and that is how it ends. -/
theorem of_withOverlay {c : Course α} {values : OrderedMap Value}
    {s s' : Session} {r : Except Fault α} {deeds : List Deed}
    (h : withOverlay values c s = some ((r, s'), deeds)) :
    ∃ saved e l inner s₁ s₂, deeds = e :: inner ++ [l] ∧
      e.doing = .entered saved ∧ e.fault? = none ∧
      l.doing = .left saved ∧ l.fault? = none ∧
      Run.enterOverlay values s = some (.ok saved, s₁) ∧
      c s₁ = some ((r, s₂), inner) := by
  rcases of_bind h with ⟨f, rfl, henter⟩ | ⟨saved, s₁, _, _, henter, h₁, rfl⟩
  · cases (of_own henter).1
  obtain ⟨hentered, rfl⟩ := of_own henter
  rcases of_bind h₁ with ⟨f, rfl, hnote⟩ | ⟨u, s₂, _, _, hnote, h₂, rfl⟩
  · cases (of_watch hnote).1
  obtain ⟨hsame, rfl⟩ := of_watch hnote
  obtain rfl : s₁ = s₂ := (Prod.mk.inj (Option.some.inj hsame)).2
  obtain ⟨result, s₃, inner, _, hc, h₃, rfl⟩ := of_attempt_bind h₂
  rcases of_bind h₃ with ⟨f, rfl, hleave⟩ | ⟨v, s₄, _, _, hleave, h₄, rfl⟩
  · cases (of_watch hleave).1
  obtain ⟨_, rfl⟩ := of_watch hleave
  obtain ⟨hresult, rfl⟩ := of_own h₄
  have hr : r = result := by
    cases result <;> cases hresult <;> rfl
  exact ⟨saved, _, _, inner, s₁, s₃, rfl, rfl, rfl, rfl, rfl, hentered,
    hr ▸ hc⟩

end Course

end LineShell
