import LineShell.Class.Linearization
import LineShell.Environment
import LineShell.Extension
import LineShell.Launch
import LineShell.Output
import LineShell.Prompt
import LineShell.Reader
import LineShell.Registry

/-! # Sessions — the state of a shell and the steps that change it

    A session is all that a shell and the code it runs can see and change.
    A *step* takes a session to a session and ends in a value or a fault;
    what it changed before a fault stays changed.  A step may also end in
    nothing at all: it ran out of the turns of a loop that it was given. -/

namespace LineShell

/-- What a session finds in its surroundings. -/
structure World where
  homes : Homes
  /-- The variables that a new environment starts with. -/
  vars : List (String × String)
  programs : List (String × Launch)
  deriving Inhabited

/-- The state of a session. -/
structure Session where
  world : World
  files : FileTree
  catalogue : Catalogue
  /-- The class of the shell, once there is a shell. -/
  shell : Option Class
  options : OrderedMap Value
  config : Config
  env : Environment
  extensions : Extensions
  /-- Is a registration that fails taken back?  That is up to the library
      that keeps the extensions. -/
  takesBack : Bool
  registry : Registry
  prompt : Prompt
  reader : Reader
  output : Output
  phase : Phase
  quitRequested : Bool
  /-- What the overlays remember that were entered by hand; nothing for
      one that was left. -/
  overlays : List (Option Environment.Saved)
  /-- How many extension objects were made. -/
  serial : Nat
  /-- What user code keeps for itself, under names that it chooses: in
      attributes of its objects, in variables of its modules.  Objects that
      keep things apart choose different names. -/
  memory : String → Value
  printed : String
  trace : List Value
  events : List Event
  deriving Inhabited

/-- The session after user code has changed what it keeps under a name. -/
def Session.amended (s : Session) (name : String)
    (change : Value → Value) : Session :=
  { s with memory := fun other =>
      if other = name then change (s.memory name) else s.memory other }

/-- How the shell of a session presents itself. -/
def Session.identity (s : Session) : Identity :=
  ⟨(s.shell.map Class.name).getD "NoneType", s.phase⟩

/-- The shell of a session as a value. -/
def Session.shellValue (s : Session) : Value :=
  if s.shell.isSome then .shell else .null

/-- A step of a session. -/
abbrev Run := ExceptT Fault (StateT Session Option)

namespace Run

variable {α : Type}

/-- Ends in nothing: no turn of a loop is left. -/
def outOfTurns : Run α := ExceptT.mk fun _ => none

/-- The fault of a call for which no depth is left. -/
def tooDeep : Fault :=
  .raised "RecursionError" "maximum recursion depth exceeded"

/-- Runs a step and keeps its fault as a value. -/
def attempt (step : Run α) : Run (Except Fault α) :=
  ExceptT.mk (Except.ok <$> step.run)

/-- Ends as an answer does. -/
def ofAnswer : Except Fault α → Run α
  | .ok a => pure a
  | .error f => throw f

/-- Runs a step and handles its ordinary faults; signals pass. -/
def contain (step : Run α) (handle : Fault → Run α) : Run α := do
  match ← step.attempt with
  | .ok a => pure a
  | .error f => if f.isSignal then throw f else handle f

/-- Runs a step, and then another whatever the first came to. -/
def andFinally (step : Run α) (last : Run Unit) : Run α := do
  let result ← step.attempt
  last
  ofAnswer result

/-- How the shell presents itself. -/
def identity : Run Identity := do
  pure (← get).identity

/-- Adds records to the log. -/
def record (events : List Event) : Run Unit :=
  modify fun s => { s with events := s.events ++ events }

/-- Adds values to the trace. -/
def addTrace (values : List Value) : Run Unit :=
  modify fun s => { s with trace := s.trace ++ values }

/-- Adds to what was printed. -/
def print (text : String) : Run Unit :=
  modify fun s => { s with printed := s.printed ++ text }

/-- Writes a text to the output: it is printed, or it goes to the
    pager. -/
def writeText (text : String) : Run Unit := do
  match (← get).output.write text with
  | .printed text => print text
  | .paged text => addTrace [.text text]

/-- Writes a value to the output as a line. -/
def writeLine (v : Value) : Run Unit := do
  let text := v.display (← identity)
  writeText (if text.endsWith "\n" then text else text ++ "\n")

/-- Changes the environment. -/
def modifyEnv (f : Environment → Environment) : Run Unit :=
  modify fun s => { s with env := f s.env }

/-- Changes the registry. -/
def modifyRegistry (f : Registry → Registry) : Run Unit :=
  modify fun s => { s with registry := f s.registry }

/-- Moves to a phase. -/
def setPhase (p : Phase) : Run Unit :=
  modify fun s => { s with phase := p }

/-- Reads a line. -/
def readLine (prompt : Value) (keys : String) : Run String := do
  let s ← get
  let (result, reader, echo) := s.reader.read s.identity prompt keys
  set { s with reader, printed := s.printed ++ echo }
  ofAnswer result

/-- Writes the history to its file. -/
def persist : Run Unit := do
  let s ← get
  let (files, result, events) := s.reader.persist s.files s.world.homes
  set { s with files, events := s.events ++ events }
  ofAnswer result

/-- Runs an external program in the environment of the shell. -/
def launch (argv : List Value) : Run Value := do
  let s ← get
  let me := s.identity
  addTrace [.list [.text "run", .list argv, .ofPairs s.env.toList]]
  match argv with
  | [] => throw (.raised "IndexError" "list index out of range")
  | program :: _ =>
      let found := program.asText?.bind fun name =>
        s.world.programs.find? fun entry => entry.1 == name
      match found with
      | some (_, launch) => ofAnswer launch.report
      | none =>
          ofAnswer (Launch.failed
            s!"[Errno 2] No such file or directory: {program.shown me}").report

end Run

end LineShell
