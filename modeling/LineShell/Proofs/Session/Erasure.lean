import LineShell.Proofs.Session.Course

/-! # Erasure — courses without their deeds

    Without the list of what is done, the course of a function of a session
    is that function, so what holds of the deeds of a course holds of what
    the session does (`Course.run_runLine`, `Course.run_session`). -/

namespace LineShell

namespace Course

variable {α : Type}

section Functions

variable (execute : Executor)

@[simp] theorem run_notifyOne (report : Report) (i : Implementation) :
    (notifyOne execute report i).run =
      Run.notifyOne execute report.stage report.fault report.line i := by
  rw [notifyOne, run_contain, run_watch]
  simp only [run_own]
  rfl

@[simp] theorem run_notify (report : Report) :
    (notify execute report).run =
      Run.notify execute report.stage report.fault report.line := by
  simp only [notify, run_bind, run_own, run_forEach, run_notifyOne]
  rfl

@[simp] theorem run_runImplementation (hook : String) (i : Implementation)
    (given : List (String × Value)) :
    (runImplementation execute hook i given).run =
      Run.runImplementation execute hook i given := by
  simp only [runImplementation, run_contain, run_watch, run_bind, run_own,
    run_notify, run_pure]
  rfl

@[simp] theorem run_firstAnswer (hook : String)
    (given : List (String × Value)) (chain : List Implementation) :
    (firstAnswer execute hook given chain).run =
      Run.firstAnswer execute hook given chain := by
  induction chain with
  | nil => exact run_pure _
  | cons i rest ih =>
      rw [firstAnswer, run_bind, run_runImplementation, Run.firstAnswer]
      congr 1
      funext v
      split
      · exact ih
      · exact run_pure v

@[simp] theorem run_rewrite (hook key : String)
    (given : List (String × Value)) (value : Value)
    (chain : List Implementation) :
    (rewrite execute hook key given value chain).run =
      Run.rewrite execute hook key given value chain := by
  induction chain generalizing value with
  | nil => exact run_pure _
  | cons i rest ih =>
      rw [rewrite, run_bind, run_runImplementation, Run.rewrite]
      congr 1
      funext v
      exact ih _

@[simp] theorem run_callFirst (hook : String)
    (given : List (String × Value)) :
    (callFirst execute hook given).run =
      Run.callFirst execute hook given := by
  simp only [callFirst, run_bind, run_own, run_firstAnswer]
  rfl

@[simp] theorem run_callChain (hook key : String) (value : Value)
    (given : List (String × Value)) :
    (callChain execute hook key value given).run =
      Run.callChain execute hook key value given := by
  simp only [callChain, run_bind, run_own, run_rewrite]
  rfl

@[simp] theorem run_firstResult (place : Place) (hook : String)
    (args : List Value) (given : List (String × Value)) :
    (firstResult execute place hook args given).run =
      Run.firstResult execute hook args given := by
  simp only [firstResult, run_bind, run_own, run_callFirst]
  rw [Run.firstResult]
  congr 1
  funext shell
  congr 1
  funext v
  split
  · exact run_watch _ _
  · exact run_pure v

@[simp] theorem run_reportFault (place : Place) (f : Fault) :
    (reportFault execute place f).run =
      Run.reportFault execute place.stage place.title f place.line := by
  simp only [reportFault, run_bind, run_own, run_notify, run_watch]
  rfl

@[simp] theorem run_answerFault (place : Place) (f : Fault) :
    (answerFault execute place f).run =
      Run.answerFault execute place.stage place.title f place.line := by
  rw [answerFault, Run.answerFault]
  cases f.textFault? with
  | some cause => exact run_own _
  | none => exact run_reportFault execute place f

@[simp] theorem run_answerUnread (line : Value) (f : Fault) :
    (answerUnread execute ⟨.precmd, Stage.precmd.name, line⟩ f).run =
      Run.answerUnread execute f line := by
  rw [answerUnread, Run.answerUnread]
  cases f.lineReason? with
  | some told => simp only [run_bind, run_own, run_watch]
  | none =>
      dsimp only
      split
      · exact run_own _
      · exact run_answerFault execute _ f

@[simp] theorem run_follow (place : Place) (line : Line) (route : Route) :
    (follow execute place line route).run =
      Run.follow execute line route := by
  cases route with
  | empty => exact run_firstResult execute _ _ _ _
  | unknown => exact run_firstResult execute _ _ _ _
  | _ => exact run_watch _ _

@[simp] theorem run_withOverlay (values : OrderedMap Value)
    (c : Course α) :
    (withOverlay values c).run = Run.withOverlay values c.run := by
  simp only [withOverlay, run_bind, run_own, run_watch, run_andFinally]
  rfl

@[simp] theorem run_dispatch (line : Line) (raw : Value) :
    (dispatch execute line raw).run = Run.dispatch execute line raw := by
  simp only [dispatch, run_withOverlay, run_contain, run_bind, run_own,
    run_follow, run_answerFault]
  rfl

@[simp] theorem run_readRewritten (place : Place) (line : Value) :
    (readRewritten execute place line).run =
      Run.readRewritten execute line := by
  simp only [readRewritten, run_bind, run_own, run_watch, run_callChain]
  rw [Run.readRewritten, Run.rewriteLine, bind_assoc]
  simp only [bind_assoc]
  rfl

@[simp] theorem run_rewriteResult (result line : Value) :
    (rewriteResult execute result line).run =
      Run.rewriteResult execute result line := by
  rw [rewriteResult, Run.rewriteResult, run_bind, run_attempt, run_watch]
  congr 1
  funext r
  cases r with
  | ok result =>
      simp only [run_bind, run_own, run_callChain]
  | error f =>
      dsimp only
      split
      · exact run_own _
      · exact run_answerFault execute _ f

@[simp] theorem run_lineResult (line : Value) :
    (lineResult execute line).run = Run.lineResult execute line := by
  rw [lineResult, Run.lineResult, run_bind, run_attempt, run_readRewritten]
  congr 1
  funext r
  cases r with
  | ok split => exact run_dispatch execute _ _
  | error f => exact run_answerUnread execute line f

/-- The course of a line is the course of running it. -/
@[simp] theorem run_runLine (line : Value) :
    (runLine execute line).run = Run.runLine execute line := by
  simp only [runLine, run_bind, run_lineResult, run_rewriteResult]
  rfl

@[simp] theorem run_helpFrom (b : Bound) (topic : String)
    (args : List Value) :
    (helpFrom execute b topic args).run =
      Run.helpFrom execute b topic args := by
  simp only [helpFrom, run_bind, run_contain, run_watch, run_own, run_pure]
  rw [Run.helpFrom]
  congr 1
  funext v
  split
  · exact run_pure _
  · simp only [run_bind, run_own, run_pure]

/-- The course of an answer of the help system. -/
@[simp] theorem run_helpText (args : List Value) :
    (helpText execute args).run = Run.helpText execute args := by
  cases args with
  | nil => exact run_own _
  | cons topic args =>
      rw [helpText, helpTopic, run_bind, run_own, Run.helpText, Run.helpTopic]
      congr 1
      funext s
      dsimp only
      split
      · exact run_own _
      · cases topic.asText?.bind s.registry.helper? with
        | none => exact run_pure _
        | some helper =>
            cases helper with
            | member b => exact run_helpFrom execute _ _ _
            | doc text => exact run_pure _

@[simp] theorem run_renderPrompt :
    (renderPrompt execute).run = Run.renderPrompt execute := by
  simp only [renderPrompt, run_bind, run_own, run_contain, run_watch]
  rw [Run.renderPrompt]

@[simp] theorem run_emitPresent (v : Value) :
    (emitPresent execute v).run = Run.emitPresent execute v := by
  rw [emitPresent, Run.emitPresent]
  split
  · exact run_pure ()
  · exact run_watch _ _

@[simp] theorem run_promptedLine :
    (promptedLine execute).run = Run.promptedLine execute := by
  simp only [promptedLine, run_bind, run_renderPrompt, run_watch]
  rfl

@[simp] theorem run_nextLine :
    (nextLine execute).run = Run.nextLine execute := by
  rw [nextLine, run_bind, run_attempt, run_promptedLine]
  show _ = (Run.promptedLine execute).attempt >>= _
  congr 1
  funext r
  cases r with
  | ok line => exact run_pure _
  | error f =>
      cases f with
      | endOfInput text => simp only [run_bind, run_own, run_pure]
      | _ => exact run_own _

@[simp] theorem run_turn : (turn execute).run = Run.turn execute := by
  rw [turn, Run.turn, run_bind, run_nextLine]
  congr 1
  funext line
  cases line with
  | none => exact run_pure _
  | some line =>
      simp only [run_bind, run_runLine, run_emitPresent, run_own, run_pure]

@[simp] theorem run_turns (n : Nat) :
    (turns execute n).run = Run.turns execute n := by
  induction n with
  | zero => exact run_own _
  | succ n ih =>
      rw [turns, Run.turns, run_bind, run_turn]
      congr 1
      funext turn
      cases turn with
      | ended => exact run_pure ()
      | again => exact ih

@[simp] theorem run_turnsUnlessStopped :
    (turnsUnlessStopped execute).run = Run.turnsUnlessStopped execute := by
  rw [turnsUnlessStopped, Run.turnsUnlessStopped, run_bind, run_own]
  congr 1
  funext s
  split
  · exact run_pure ()
  · exact run_turns execute _

@[simp] theorem run_conversation :
    (conversation execute).run = Run.conversation execute := by
  rw [conversation, run_bind, run_attempt, run_turnsUnlessStopped]
  show _ = (Run.turnsUnlessStopped execute).attempt >>= _
  congr 1
  funext r
  cases r with
  | ok u => exact run_pure ()
  | error f => cases f <;> exact run_own _

@[simp] theorem run_sayAt (stage : Stage) :
    (sayAt execute stage).run = Run.sayAt execute stage := by
  simp only [sayAt, run_bind, run_contain, run_firstResult,
    run_answerFault, run_emitPresent]
  rfl

@[simp] theorem run_setPhase (p : Phase) :
    (setPhase p).run = Run.setPhase p :=
  run_watch _ _

@[simp] theorem run_takeLeave :
    (takeLeave execute).run = Run.takeLeave execute := by
  simp only [takeLeave, run_bind, run_setPhase, run_sayAt, run_watch]
  rfl

/-- The course of a session is the course of running it. -/
@[simp] theorem run_session :
    (session execute).run = Run.session execute := by
  rw [session, Run.session, run_bind, run_own]
  congr 1
  funext s
  split
  · exact run_own _
  · simp only [run_bind, run_watch, run_sayAt, run_conversation,
      run_takeLeave]

end Functions

end Course

end LineShell
