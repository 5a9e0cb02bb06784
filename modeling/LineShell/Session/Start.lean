import LineShell.BaseShell
import LineShell.Options
import LineShell.Session.Registration

/-! # Starting a session — how a shell comes to be

    The options are checked, the configuration files read, the members of
    the class registered; then come the prompt, the reader and the output,
    and at last the extensions, in order.  The first failure ends it, and
    there is no shell. -/

namespace LineShell

/-- What stands for a prompt when a shell is made. -/
inductive GivenPrompt where
  | plain (p : PlainPrompt)
  | code (code : List Value → Program) (bound : Option (List Value))
  deriving Inhabited

/-- What a shell is made from. -/
structure ShellPlan where
  shellClass : Class
  options : List (String × Value)
  /-- The reader; without one the keyboard is read. -/
  reader : Option Reader
  output : Output
  prompt : Option GivenPrompt
  extensions : List Class
  deriving Inhabited

/-- The options of a plan, apart from the prompt. -/
def ShellPlan.args (plan : ShellPlan) : OrderedMap Value :=
  (OrderedMap.ofList plan.options).erase "prompt"

/-- The prompt of a plan: it may stand among the options. -/
def ShellPlan.givenPrompt (plan : ShellPlan) : Option GivenPrompt :=
  match plan.prompt with
  | some p => some p
  | none =>
      ((OrderedMap.ofList plan.options).get? "prompt").map fun v =>
        .plain (.value v)

/-- A session without a shell. -/
def Session.bare (world : World) (files : FileTree)
    (catalogue : Catalogue) (takesBack : Bool := true) : Session where
  world
  files
  catalogue
  shell := none
  options := .empty
  config := .empty
  env := .ofList (world.vars.map fun pair => (pair.1, .text pair.2))
  extensions := .empty
  takesBack
  registry := .empty
  prompt := .literal .null
  reader := ⟨.script [] false, none, Options.standardSize, []⟩
  output := .stream
  phase := .idle
  quitRequested := false
  overlays := []
  serial := 0
  memory _ := .null
  printed := ""
  trace := []
  events := []

namespace Run

variable (execute : Executor)

/-- Adds records and ends as an answer does. -/
def recorded {α : Type} (result : Except Fault α × List Event) : Run α := do
  record result.2
  ofAnswer result.1

/-- Builds a reader with the history of its file. -/
def buildReader (source : Source) (histfile : Option Path)
    (histsize : Int) : Run Reader := do
  let s ← get
  recorded (Reader.build s.files s.world.homes source histfile histsize)

/-- Reads configuration files. -/
def loadConfig (paths : List Path) : Run Config := do
  let s ← get
  recorded (Config.load s.files s.world.homes paths)

/-- Checks options. -/
def checkOptions (args : OrderedMap Value) : Run Options :=
  match Options.check args with
  | .ok o => pure o
  | .error errors => throw (.invalidOptions errors)

/-- The first prompt of a shell: the one that is given, or else what the
    class says. -/
def firstPrompt (c : Class) (given : Option GivenPrompt) :
    Run Prompt := do
  match given with
  | some (.code code bound) => ofAnswer (Prompt.ofCode code bound [])
  | some (.plain (.value .null)) => standard
  | some (.plain p) => ofAnswer (Prompt.ofPlain (← identity) p [])
  | none => standard
where
  /-- The prompt that the class says. -/
  standard : Run Prompt := do
    let v ← callNamed execute c "default_prompt" []
    ofAnswer (Prompt.ofPlain (← identity) (.value v) [])

/-- The reader of a shell: the one that is given, or else the keyboard with
    the history file of the options. -/
def firstReader (given : Option Reader) (o : Options) : Run Reader :=
  match given with
  | some reader => pure reader
  | none => buildReader .keyboard o.histfile o.histsize

/-- Registers extension objects by their numbers. -/
def registerAll (first : Nat) : List Class → Run Unit
  | [] => pure ()
  | c :: rest => do
      let _ ← registerExtension c first none
      registerAll (first + 1) rest

/-- Makes a shell. -/
def start (plan : ShellPlan) : Run Unit := do
  let args := plan.args
  let o ← checkOptions args
  let config ← loadConfig o.rcfiles
  modify fun s => { s with
    options := o.merged args
    config
    registry := Registry.discover [plan.shellClass] }
  let prompt ← firstPrompt execute plan.shellClass plan.givenPrompt
  modify fun s => { s with prompt }
  let reader ← firstReader plan.reader o
  modify fun s => { s with
    reader
    output := plan.output
    serial := plan.extensions.length }
  registerAll 0 plan.extensions
  modify fun s => { s with shell := some plan.shellClass }

end Run

end LineShell
