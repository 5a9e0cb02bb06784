import LineShell.Session.Command

/-! # The loop — prompt, read, run, write

    A session greets, runs line after line until it is asked to stop, the
    input ends or an interrupt comes, and then takes its leave: it says
    goodbye, writes its history and is over for good.  Each turn of the
    loop reads one line, so no more turns can be made than lines are left
    and one. -/

namespace LineShell

namespace Run

variable (execute : Executor)

/-- What one turn of the loop comes to. -/
inductive Turn where
  | again
  | ended
  deriving DecidableEq, Repr, Inhabited

/-- Reads the next line at a prompt, or finds that the input has ended. -/
def nextLine : Run (Option String) := do
  let result ← attempt do
    let prompt ← renderPrompt execute
    readLine prompt ""
  match result with
  | .ok line => pure (some line)
  | .error (.endOfInput _) =>
      record [.endOfInput]
      pure none
  | .error f => throw f

/-- One turn of the loop. -/
def turn : Run Turn := do
  match ← nextLine execute with
  | none => pure .ended
  | some line =>
      let result ← runLine execute (.text line)
      emitPresent execute result
      pure (if (← get).quitRequested then .ended else .again)

/-- At most so many turns. -/
def turns : Nat → Run Unit
  | 0 => outOfTurns
  | n + 1 => do
      match ← turn execute with
      | .ended => pure ()
      | .again => turns n

/-- The turns of a session, up to an interrupt. -/
def conversation : Run Unit := do
  let result ← attempt do
    let s ← get
    if s.quitRequested then pure ()
    else turns execute (s.reader.remaining + 1)
  match result with
  | .ok () => pure ()
  | .error (.interrupt _) => record [.interrupted]
  | .error f => throw f

/-- Says what the shell says at a stage, if anything. -/
def sayAt (stage : Stage) : Run Unit := do
  let v ← guarded execute stage (firstResult execute stage.name [] []) .null
  emitPresent execute v

/-- Takes leave. -/
def takeLeave : Run Unit := do
  setPhase .quitting
  sayAt execute .outro
  persist
  setPhase .terminated

/-- Runs a session; one that is over is not run again. -/
def session : Run Unit := do
  let s ← get
  if s.phase == .terminated then record [.runAfterEnd s.identity.className]
  else
    modify fun s => { s with phase := .running, quitRequested := false }
    sayAt execute .intro
    conversation execute
    takeLeave execute

end Run

end LineShell
