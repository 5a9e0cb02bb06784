import LineShell.Options
import LineShell.RcFile.Load
import LineShell.Settings.EnvFile
import LineShell.Text.Caseless

/-! # Settings — what a process is told from outside

    Four settings are read from variables with a common start of their
    names, in any letter case.  The variables of the process count first,
    then those of the variable file in the working directory, then the
    standard values; values that are given directly override all of them,
    unless they are missing or empty lists. -/

namespace LineShell

/-- The settings of a process. -/
structure Settings where
  histfile : Value
  rcfiles : Value
  prompt : Value
  logLevel : Value
  deriving Inhabited

namespace Settings

/-- What the names of the variables start with. -/
def variableStart : String := "shellbase_"

/-- The file with variables. -/
def fileName : String := ".env"

/-- A name in small letters.  Only ASCII letters matter: no other character
    has a letter of a setting's name as its small form. -/
def smallName (name : String) : String :=
  String.ofList (name.toList.map Text.smallLetter)

/-- The last value of a variable in any letter case. -/
def lastValue? (vars : List (String × Option String))
    (name : String) : Option String :=
  vars.foldl
    (fun found pair => if smallName pair.1 == name then pair.2 else found)
    none

/-- The value of a setting: from the process, or else from the file. -/
def given? (process : List (String × String))
    (file : OrderedMap (Option String)) (setting : String) :
    Option String :=
  let name := variableStart ++ setting
  (lastValue? (process.map fun pair => (pair.1, some pair.2)) name).or
    (lastValue? file.toList name)

/-- The settings that variables make. -/
def ofVariables (process : List (String × String))
    (file : OrderedMap (Option String)) : Settings where
  histfile := Options.pathValue
    ((given? process file "histfile").map Path.ofText)
  rcfiles := .list
    ((((given? process file "rcfiles").map Options.pathsOf).getD []).map
      .path)
  prompt := ((given? process file "prompt").map .text).getD .null
  logLevel := .text ((given? process file "log_level").getD "WARNING")

/-- A value that overrides nothing. -/
def isVoid : Value → Bool
  | .null => true
  | .list [] => true
  | _ => false

/-- Overrides one setting. -/
def override (s : Settings) (name : String) (v : Value) : Settings :=
  if isVoid v then s
  else
    match name with
    | "histfile" => { s with histfile := v }
    | "rcfiles" => { s with rcfiles := v }
    | "prompt" => { s with prompt := v }
    | "log_level" => { s with logLevel := v }
    | _ => s

/-- The variables in the file of the working directory. -/
def fileVariables (files : FileTree) (process : List (String × String)) :
    Except Fault (OrderedMap (Option String)) :=
  match files.read (Path.ofText fileName) with
  | .error _ => .ok .empty
  | .ok bytes => (textOfBytes bytes).map (EnvFile.read process)

/-- The settings of a process with overrides. -/
def load (files : FileTree) (process : List (String × String))
    (overrides : List (String × Value)) : Except Fault Settings :=
  (fileVariables files process).map fun file =>
    overrides.foldl (fun s pair => s.override pair.1 pair.2)
      (ofVariables process file)

/-- The settings as pairs. -/
def values (s : Settings) : List (String × Value) :=
  [("histfile", s.histfile), ("rcfiles", s.rcfiles),
    ("prompt", s.prompt), ("log_level", s.logLevel)]

/-- The settings that a shell is constructed with. -/
def shellOptions (s : Settings) : List (String × Value) :=
  [("histfile", s.histfile), ("rcfiles", s.rcfiles), ("prompt", s.prompt)]

end Settings

end LineShell
