import LineShell.Session.Answer

/-! # Execution — user code and its session, turn by turn

    Executing a program asks the session for each of its requests and
    goes on with the answer.  What the session does for a request may
    execute code in turn; each such execution is one deeper, and the depth
    is counted down; a call that has none left fails.  Within one depth
    execution follows the program. -/

namespace LineShell

namespace Run

/-- Executes a program, where `execute` executes what the session calls
    on the way. -/
def perform (execute : Executor) (frame : Frame) : Program → Run Value
  | .done v => pure v
  | .fail f => throw f
  | .request r next => do
      let a ← (answer execute frame r).attempt
      perform execute frame (next a)
  | .promptCode use code bound args next => do
      let a ← (answerPromptCode execute use code bound args).attempt
      perform execute frame (next a)

/-- Executes programs to a depth of calls. -/
def executeWithin : Nat → Executor
  | 0 => fun _ _ => throw tooDeep
  | depth + 1 => fun frame p => perform (executeWithin depth) frame p

/-- The depth of calls that a session is given. -/
def standardDepth : Nat := 100000

/-- Executes programs to the standard depth. -/
def executeFully : Executor :=
  executeWithin standardDepth

end Run

end LineShell
