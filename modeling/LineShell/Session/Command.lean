import LineShell.Line.Items
import LineShell.Session.Hooks
import LineShell.Text.Caseless

/-! # Commands — from a line to its result

    A line is rewritten, split and dispatched, and its result is rewritten
    in turn.  A line that is split takes exactly one *route*: there is no
    command, or it is a quit word, a help word, an escape to a program, a
    registered command, or an unknown one.  The route is taken within the
    overlay of the line.

    Whatever fails on the way is told to the observers and answered with
    an error text; only a line that cannot be split is answered without
    telling.  A fault that is not plain cannot be answered, and what comes
    out of the line is the fault of the attempt. -/

namespace LineShell

open LineShell.Text

/-- The words that end a session. -/
def quitWords : List String := ["quit", "exit", "logout"]

/-- The words that ask for help. -/
def helpWords : List String := ["help", "?"]

/-- Where a line goes. -/
inductive Route where
  | empty
  | quit
  | help
  /-- To a program, with the words that make up its command line. -/
  | escape (argv : List Value)
  | handler (b : Bound)
  | unknown
  deriving Inhabited

/-- The route of a line: the first that fits, in this order. -/
def Registry.route (r : Registry) (line : Line) : Route :=
  if line.isEmpty then .empty
  else if isKeyword quitWords line.command then .quit
  else if isKeyword helpWords line.command then .help
  else
    match line.command.toList with
    | '!' :: [] => .escape line.args
    | '!' :: program => .escape (.text (String.ofList program) :: line.args)
    | _ =>
        match r.dispatch? line.command with
        | some b => .handler b
        | none => .unknown

/-- A stage of a session at which something can fail. -/
inductive Stage where
  | handler
  | precmd
  | postcmd
  | intro
  | outro
  deriving DecidableEq, Repr, Inhabited

/-- The name of a stage. -/
def Stage.name : Stage → String
  | .handler => "handler"
  | .precmd => "precmd"
  | .postcmd => "postcmd"
  | .intro => "intro"
  | .outro => "outro"

namespace Run

variable (execute : Executor)

/-- The text that the shell makes of a fault. -/
def formatFault (f : Fault) : Run Value :=
  callShell execute "format_error" [.fault f]

/-- Reports a fault: it is recorded, the observers are told, and the shell
    makes a text of it.  `title` stands before its message. -/
def reportFault (stage : Stage) (title : String) (f : Fault)
    (line : Value) : Run Value := do
  let whole := Fault.inCommand title f
  record [.commandFailed title]
  notify execute stage.name whole line
  formatFault execute whole

/-- Answers a fault.  The report starts with its text; where there is none,
    the cause comes out and nobody is told. -/
def answerFault (stage : Stage) (title : String) (f : Fault)
    (line : Value) : Run Value :=
  match f.textFault? with
  | some cause => throw cause
  | none => reportFault execute stage title f line

/-- Runs a step at a stage of its own and answers its faults. -/
def guarded (stage : Stage) (step : Run Value) (line : Value) :
    Run Value :=
  contain step fun f => answerFault execute stage stage.name f line

/-- Takes a route. -/
def follow (line : Line) : Route → Run Value
  | .empty => firstResult execute "emptycommand" [] []
  | .quit => callShell execute "quit" []
  | .help => callShell execute "help" line.args
  | .escape argv => callShell execute "shell_escape" argv
  | .handler b => callBound execute b (.ofArgs line.args)
  | .unknown =>
      firstResult execute "default" (.text line.command :: line.args)
        [("command", .text line.command), ("args", .list line.args)]

/-- Routes a line within its overlay; `raw` is the line as typed. -/
def dispatch (line : Line) (raw : Value) : Run Value :=
  withOverlay line.overlay
    (contain (do follow execute line ((← get).registry.route line))
      fun f => answerFault execute .handler line.command f raw)

/-- A line as the shell and the hooks rewrite it. -/
def rewriteLine (line : Value) : Run Value := do
  let line ← callShell execute "precmd" [line]
  callChain execute "precmd" "line" line [← shellParam]

/-- A line, rewritten and split. -/
def readRewritten (line : Value) : Run Line := do
  let line ← rewriteLine execute line
  ofAnswer (Line.ofValue (← identity) line)

/-- A result as the shell and the hooks rewrite it.  A result that the
    shell fails to rewrite is answered with an error text, which the hooks
    do not see. -/
def rewriteResult (result line : Value) : Run Value := do
  match ← (callShell execute "postcmd" [result]).attempt with
  | .ok result =>
      callChain execute "postcmd" "output" result [← shellParam]
  | .error f =>
      if f.isSignal then throw f
      else answerFault execute .postcmd Stage.postcmd.name f line

/-- Answers the fault of a line that was not read: a bad line is recorded
    with its reason, if there is one, and the observers are not told. -/
def answerUnread (f : Fault) (line : Value) : Run Value :=
  match f.lineReason? with
  | some told => do
      let (reason, shown) ← ofAnswer told
      record [.badLine reason shown]
      formatFault execute f
  | none =>
      if f.isSignal then throw f
      else answerFault execute .precmd Stage.precmd.name f line

/-- The result of a line before it is rewritten. -/
def lineResult (line : Value) : Run Value := do
  match ← (readRewritten execute line).attempt with
  | .ok split => dispatch execute split line
  | .error f => answerUnread execute f line

/-- Runs one line. -/
def runLine (line : Value) : Run Value := do
  rewriteResult execute (← lineResult execute line) line

end Run

end LineShell
