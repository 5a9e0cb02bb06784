import LineShell.Logging
import LineShell.Session.Execute
import LineShell.Settings

/-! # The command line — running the base shell as a program

    The options of the command line override the settings of the process.
    Logging is configured, a shell is built for the input, and it runs to
    its end.  A shell that cannot be built for a reason of its own is
    reported on the error stream. -/

namespace LineShell

namespace CommandLine

/-- What the command line says. -/
structure Arguments where
  histfile : Option String
  rcfiles : List String
  prompt : Option String
  logLevel : Option String
  deriving DecidableEq, Repr, Inhabited

/-- Nothing is said. -/
def Arguments.none : Arguments := ⟨.none, [], .none, .none⟩

/-- Sets an option; `none` when there is no such option. -/
def Arguments.set? (a : Arguments) (option value : String) :
    Option Arguments :=
  match option with
  | "--histfile" => some { a with histfile := some value }
  | "--rcfile" => some { a with rcfiles := a.rcfiles ++ [value] }
  | "--prompt" => some { a with prompt := some value }
  | "--log-level" => some { a with logLevel := some value }
  | _ => Option.none

/-- Cuts an argument at its first equals sign. -/
def splitAtEquals (text : String) : Option (String × String) :=
  match text.toList.dropWhile (· != '=') with
  | _ :: value =>
      some (String.ofList (text.toList.takeWhile (· != '=')),
        String.ofList value)
  | [] => Option.none

/-- Reads the command line; `none` when it is used wrongly.  The value of
    an option follows an equals sign or is the next argument, whatever
    that is. -/
def parseFrom (a : Arguments) : List String → Option Arguments
  | [] => some a
  | ["--"] => some a
  | first :: rest =>
      match splitAtEquals first with
      | some (option, value) =>
          (a.set? option value).bind fun a => parseFrom a rest
      | Option.none =>
          match rest with
          | value :: rest =>
              (a.set? first value).bind fun a => parseFrom a rest
          | [] => Option.none

/-- Reads the command line. -/
def parse (argv : List String) : Option Arguments :=
  parseFrom .none argv

/-- The settings that the command line overrides. -/
def Arguments.overrides (a : Arguments) : List (String × Value) :=
  [("histfile", Options.pathValue (a.histfile.map Path.ofText)),
    ("rcfiles", .list (a.rcfiles.map fun text => .path (.ofText text))),
    ("prompt", (a.prompt.map Value.text).getD .null),
    ("log_level", (a.logLevel.map Value.text).getD .null)]

/-- What a run of the program comes to: an exit code, or a fault that
    nothing contains. -/
structure Outcome where
  exit : Except Fault Nat
  out : String
  err : List String
  files : FileTree
  deriving Inhabited

/-- A fault of the shell's own, for which the program exits with a
    report. -/
def isReported : Fault → Bool
  | .badLine .. => true
  | .inCommand .. => true
  | .invalidOptions _ => true
  | .unreadableConfig .. => true
  | _ => false

end CommandLine

namespace Settings

/-- The reader for an input that is no terminal.  The history file of the
    settings must be a path by now. -/
def streamReader (settings : Settings) (input : String) : Run Reader :=
  match settings.histfile with
  | .null => Run.buildReader source none Options.standardSize
  | .path p => Run.buildReader source (some p) Options.standardSize
  | v => do
      throw (.noAttribute (v.kindName (← Run.identity)) "expanduser")
where
  /-- The lines of the input, whatever ends them. -/
  source : Source :=
    .ofText (String.ofList (Text.unifyNewlines input.toList)) false

/-- Builds the base shell for a process: at a terminal it reads the
    keyboard and writes to a console, otherwise it reads its input and
    writes plainly. -/
def buildShell (settings : Settings) (terminal : Bool) (input : String) :
    Run Unit := do
  let base := ((← get).catalogue.find? BaseShell.className).getD default
  let reader ←
    if terminal then pure none
    else some <$> streamReader settings input
  Run.start Run.executeFully {
    shellClass := base
    options := settings.shellOptions
    reader
    output := if terminal then .standard else .stream
    prompt := none
    extensions := [] }

end Settings

namespace CommandLine

/-- Builds a shell and runs it; the exit code and what is reported. -/
def runShell (settings : Settings) (input : String) :
    Run (Nat × List String) := do
  match ← (settings.buildShell false input).attempt with
  | .ok () =>
      Run.session Run.executeFully
      pure (0, [])
  | .error f =>
      if isReported f then pure (1, [s!"shellbase: {f.message}"])
      else throw f

/-- The text of the level that settings name. -/
def levelText? : Value → Option String
  | .text s => some s
  | _ => none

/-- Runs the program on a session that has not begun. -/
def runIn (s : Session) (a : Arguments) (input : String) :
    Option Outcome :=
  let failed := fun f => some ⟨.error f, "", [], s.files⟩
  match Settings.load s.files s.world.vars a.overrides with
  | .error f => failed f
  | .ok settings =>
      match Logging.unconfigured.configure s.world.vars
          (levelText? settings.logLevel) with
      | (_, some f) => failed f
      | (_, none) =>
          (runShell settings input s).map fun
            | (.ok (code, err), s) => ⟨.ok code, s.printed, err, s.files⟩
            | (.error f, s) => ⟨.error f, s.printed, [], s.files⟩

/-- Runs the program: surroundings, files, command line and input. -/
def run (world : World) (files : FileTree) (argv : List String)
    (input : String) : Option Outcome :=
  match parse argv with
  | none => some ⟨.ok 2, "", [], files⟩
  | some a => runIn (.bare world files .base) a input

end CommandLine

end LineShell
