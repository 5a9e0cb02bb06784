import LineShell.Text.Quoted

/-! # Events — what a session records about itself

    Each event is one record of the log: it has a level and a message. -/

namespace LineShell

open LineShell.Text

/-- The importance of a record. -/
inductive Level where
  | trace
  | debug
  | info
  | success
  | warning
  | error
  | critical
  deriving DecidableEq, Repr, Inhabited

/-- The name of a level. -/
def Level.name : Level → String
  | .trace => "TRACE"
  | .debug => "DEBUG"
  | .info => "INFO"
  | .success => "SUCCESS"
  | .warning => "WARNING"
  | .error => "ERROR"
  | .critical => "CRITICAL"

/-- The weight of a level. -/
def Level.weight : Level → Nat
  | .trace => 5
  | .debug => 10
  | .info => 20
  | .success => 25
  | .warning => 30
  | .error => 40
  | .critical => 50

/-- Something worth a record. -/
inductive Event where
  /-- A line of a configuration file that is neither a flag nor an
      assignment. -/
  | malformedLine (source : String) (line : Nat) (text : String)
  | configMissing (path : String)
  | configLoaded (path : String) (keys : Nat)
  | historyUnreadable (path : String)
  | historyUnwritten (path : String)
  | historyWritten (path : String) (entries : Nat)
  /-- A line that cannot be split; `shown` is the quoted line. -/
  | badLine (reason shown : String)
  | endOfInput
  | interrupted
  | runAfterEnd (shell : String)
  | promptFailed (shell : String)
  | completerFailed (command : String)
  | commandFailed (command : String)
  | hookFailed (hook extension : String)
  | observerFailed (stage extension : String)
  | helpFailed (topic : String)
  | extensionRegistered (name : String)
  deriving DecidableEq, Repr

/-- The level of an event. -/
def Event.level : Event → Level
  | .malformedLine .. => .warning
  | .configMissing _ => .debug
  | .configLoaded .. => .debug
  | .historyUnreadable _ => .warning
  | .historyUnwritten _ => .warning
  | .historyWritten .. => .debug
  | .badLine .. => .debug
  | .endOfInput => .debug
  | .interrupted => .debug
  | .runAfterEnd _ => .warning
  | .promptFailed _ => .warning
  | .completerFailed _ => .warning
  | .commandFailed _ => .warning
  | .hookFailed .. => .warning
  | .observerFailed .. => .warning
  | .helpFailed _ => .warning
  | .extensionRegistered _ => .debug

/-- The message of an event. -/
def Event.message : Event → String
  | .malformedLine source line text =>
      s!"rcfile.malformed_line source={source} line={line} text={quote text}"
  | .configMissing path => s!"rcfile.missing path={path}"
  | .configLoaded path keys => s!"rcfile.loaded path={path} keys={keys}"
  | .historyUnreadable path => s!"history.load_failed path={path}"
  | .historyUnwritten path => s!"history.persist_failed path={path}"
  | .historyWritten path entries =>
      s!"history.persisted path={path} entries={entries}"
  | .badLine reason shown =>
      s!"shell.parse_error reason={reason} line={shown}"
  | .endOfInput => "shell.end_of_input"
  | .interrupted => "shell.interrupted"
  | .runAfterEnd shell => s!"shell.run_after_quit shell={shell}"
  | .promptFailed shell => s!"shell.prompt_failed shell={shell}"
  | .completerFailed command => s!"shell.completer_failed command={command}"
  | .commandFailed command => s!"shell.handler_failed command={command}"
  | .hookFailed hook extension =>
      s!"hook.failed hook={hook} extension={extension}"
  | .observerFailed stage extension =>
      s!"hook.on_error_failed stage={stage} extension={extension}"
  | .helpFailed topic => s!"help.producer_failed topic={topic}"
  | .extensionRegistered name => s!"shell.extension_registered name={name}"

end LineShell
