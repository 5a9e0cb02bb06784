import LineShell.Class.Linearization
import LineShell.Decimal.Numeral
import LineShell.History

/-! # The base shell — what every shell can do unless it says otherwise

    The members of the class that shells derive from.  Each is plain user
    code: it answers from its arguments, or it asks its session for the
    one thing that only the session can do.  So overriding a member and
    falling back on it work as for any other class. -/

namespace LineShell

open LineShell.Decimal

namespace BaseShell

/-- The name of the class. -/
def className : String := "ShellBase"

/-- The version of the shell. -/
def version : String := "0.1.0"

/-- The disclaimer. -/
def warranty : String :=
  "This program is distributed in the hope that it will be useful, but\n"
    ++ "WITHOUT ANY WARRANTY; without even the implied warranty of\n"
    ++ "MERCHANTABILITY or FITNESS FOR A PARTICULAR PURPOSE."

/-- How a program is run from the shell. -/
def escapeUsage : String := "usage: ! command [args...]"

/-- A member that takes a value for each name, and more if there is a
    rest. -/
def member (names : List String) (rest : Bool) (doc : Option String)
    (body : List Value → Program) : Attribute :=
  .function {
    signature := .named className names rest
    body := fun call => body call.args
    doc
    commands := []
    hook := none
    isStatic := false }

/-- The first value of a call. -/
def firstOf (args : List Value) : Value :=
  args.headD .null

/-- A program that ends in a text. -/
def saying (text : String) : Program :=
  .done (.text text)

/-- The text of a value between two texts. -/
def displaying (before : String) (v : Value) (after : String) : Program :=
  .ask (.display v) fun shown =>
    saying (before ++ shown.asText?.getD "" ++ after)

/-- Adds a prompt mark to the name of the class. -/
def defaultPrompt : Program :=
  .ask .className fun name => displaying "" name "> "

/-- The name of the class and its version. -/
def versionLine : Program :=
  .ask .className fun name =>
    .ask (.attribute "VERSION") fun v =>
      displaying (name.asText?.getD "" ++ " v") v ""

/-- The history from a position on. -/
def historyFrom (start : List String → Nat) : Program :=
  .ask (.reader .history) fun v =>
    let entries := (v.items?.getD []).filterMap Value.asText?
    match History.listing entries (start entries) with
    | some text => saying text
    | none => .done .null

/-- The numbered history, or the newest entries of it. -/
def history : List Value → Program
  | [] => historyFrom fun _ => 0
  | count :: _ =>
      match count.asText? with
      | none =>
          .ask (.kindOf count) fun kind =>
            .fail (.noAttribute (kind.asText?.getD "") "isdigit")
      | some text =>
          if isDigitText text then
            match count? text with
            | .ok n => historyFrom fun entries =>
                History.startOfNewest entries n
            | .error e => .fail (.refused (.numeral e))
          else .fail (.refused (.notCount text))

/-- Runs a program, or says how to. -/
def escape (args : List Value) : Program :=
  if args.isEmpty then saying escapeUsage else .answer (.launch args)

/-- The members, in order. -/
def members : List (String × Attribute) :=
  [("VERSION", .data (.text version)),
    ("default_prompt", member [] false none fun _ => defaultPrompt),
    ("precmd", member ["line"] false none fun args =>
      .done (firstOf args)),
    ("postcmd", member ["output"] false none fun args =>
      .done (firstOf args)),
    ("default", member ["command"] true none fun args =>
      displaying "" (firstOf args) ": Unknown command"),
    ("emptycommand", member [] false none fun _ => .done .null),
    ("intro", member [] false none fun _ => .done .null),
    ("outro", member [] false none fun _ => .done .null),
    ("format_error", member ["error"] false none fun args =>
      displaying "Error: " (firstOf args) ""),
    ("quit", member [] false
      (some "Ask the loop to stop after the current line.")
      fun _ => .answer .stop),
    ("help", member [] true none fun args => .answer (.helpText args)),
    ("shell_escape", member [] true
      (some ("Run a program with the shell environment and return its "
        ++ "output."))
      escape),
    ("emit", member ["output"] false
      (some "Write one result to the output sink as a terminated line.")
      fun args => .answer (.writeLine (firstOf args))),
    ("do_history", member [] true
      (some ("history [count]: show the numbered command history, "
        ++ "optionally only the last count entries."))
      history),
    ("do_version", member [] true
      (some "version: show the shell name and version.")
      fun _ => versionLine),
    ("do_warranty", member [] true
      (some "warranty: show the warranty disclaimer.")
      fun _ => saying warranty),
    ("help_help", member [] true none fun _ =>
      saying ("help [topic]: list the help topics, or show help for one "
        ++ "topic. '?' is a synonym.")),
    ("help_quit", member [] true none fun _ =>
      saying ("quit: leave the shell. 'exit' and 'logout' are synonyms, "
        ++ "and end of input quits too.")),
    ("help_shell", member [] true none fun _ =>
      saying ("! command [args...]: run a program with the shell "
        ++ "environment and show its output."))]

end BaseShell

/-- The catalogue that holds the base shell alone. -/
def Catalogue.base : Catalogue :=
  .ofClass BaseShell.className BaseShell.members

end LineShell
