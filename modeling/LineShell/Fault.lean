import LineShell.FileTree
import LineShell.Text.Utf8
import LineShell.Decimal.Numeral

/-! # Faults — everything that can go wrong, by cause

    A fault is raised by user code or by the shell itself.  Two faults,
    the interrupt and the exit, are *signals*: they pass through every
    place that contains faults.  All others are *ordinary*.

    The shell answers an ordinary fault with a text, which it makes of the
    text of the fault.  User code has faults that get in the way of that:
    one whose text cannot be had, and one that reports a bad line and does
    not say what is wrong with it.  A fault is *plain* if it is neither,
    and no signal. -/

namespace LineShell

open LineShell.Text

/-- A value of the wrong kind. -/
inductive Mismatch where
  | notCallable (kind : String)
  | notIterable (kind : String)
  | noLength (kind : String)
  | unhashable (kind : String)
  | notText (index : Nat) (kind : String)
  | notPromptText (kind : String)
  | notPatternText (kind : String)
  | argumentCount (member : String) (count : Nat)
  | tooManyArguments (member : String) (most given : Nat)
  | missingArguments (member : String) (names : List String)
  | extraPromptArguments
  | unsupportedPrompt (shown : String)
  | inconsistentBases (bases : List String)
  | duplicateBase (base : String)
  deriving DecidableEq, Repr

/-- A value of the right kind that is refused. -/
inductive Refusal where
  | notCount (text : String)
  | numeral (error : Decimal.NumeralError)
  | takenExtension
  | blockedExtension (label : String)
  | unknownLevel (level : String)
  | noCommandNames
  | embeddedNull
  deriving DecidableEq, Repr

/-- What is wrong with an option. -/
inductive OptionProblem where
  | notPath
  | notList
  | notInteger
  | unreadableInteger
  | integerTooLong
  | fractional
  | notFinite
  | belowMinimum
  deriving DecidableEq, Repr

/-- A problem and the place in the options where it was found. -/
structure OptionError where
  place : List String
  problem : OptionProblem
  deriving DecidableEq, Repr

/-- The name of a problem. -/
def OptionProblem.name : OptionProblem → String
  | .notPath => "path_type"
  | .notList => "list_type"
  | .notInteger => "int_type"
  | .unreadableInteger => "int_parsing"
  | .integerTooLong => "int_parsing_size"
  | .fractional => "int_from_float"
  | .notFinite => "finite_number"
  | .belowMinimum => "greater_than_equal"

/-- A failure, by its cause. -/
inductive Fault where
  /-- A line that cannot be split into words; `shown` is the line as it
      is quoted in the message. -/
  | badLine (reason shown : String)
  /-- A failure while a command ran. -/
  | inCommand (command : String) (cause : Fault)
  /-- A name that is not in a mapping; `shown` is the quoted name. -/
  | missingKey (shown : String)
  | mismatch (m : Mismatch)
  | refused (r : Refusal)
  /-- An attribute that a value does not have. -/
  | noAttribute (owner name : String)
  /-- A position outside a text. -/
  | outside (message : String)
  | endOfInput (message : String)
  | interrupt (message : String)
  | exit (message : String)
  | invalidOptions (errors : List OptionError)
  /-- A configuration file that exists and cannot be read. -/
  | unreadableConfig (path cause : String)
  | undecodable (error : Utf8Error)
  | file (error : FileError)
  | noHome
  /-- An extension that declares what its hook does not offer. -/
  | badExtension
  /-- Any other named failure of user code. -/
  | raised (kind message : String)
  /-- A bad line that user code reports by a fault of a kind of its own,
      which has neither the reason nor the line. -/
  | unexplained (kind message : String)
  /-- A failure of user code that has no text, and reports no bad line:
      whoever asks for the text gets the cause raised. -/
  | textless (kind : String) (cause : Fault)
  deriving DecidableEq, Repr

/-- Names in apostrophes, the last joined by a word. -/
def joinWithAnd (names : List String) : String :=
  let marked := names.map fun name => s!"'{name}'"
  match marked.reverse with
  | [] => ""
  | [one] => one
  | [last, first] => s!"{first} and {last}"
  | last :: others =>
      ", ".intercalate others.reverse ++ s!", and {last}"

/-- The message of a mismatch. -/
def Mismatch.message : Mismatch → String
  | .notCallable kind => s!"'{kind}' object is not callable"
  | .notIterable kind => s!"'{kind}' object is not iterable"
  | .noLength kind => s!"object of type '{kind}' has no len()"
  | .unhashable kind => s!"unhashable type: '{kind}'"
  | .notText index kind =>
      s!"sequence item {index}: expected str instance, {kind} found"
  | .notPromptText kind => s!"string argument expected, got '{kind}'"
  | .notPatternText kind =>
      s!"expected string or bytes-like object, got '{kind}'"
  | .argumentCount member count =>
      s!"{member}: bad argument count {count}"
  | .tooManyArguments member most given =>
      let noun := if most == 1 then "argument" else "arguments"
      let verb := if given == 1 then "was" else "were"
      s!"{member}() takes {most} positional {noun} but {given} {verb} given"
  | .missingArguments member names =>
      let noun := if names.length == 1 then "argument" else "arguments"
      s!"{member}() missing {names.length} required positional {noun}: "
        ++ joinWithAnd names
  | .extraPromptArguments =>
      "extra prompt arguments need a callable prompt"
  | .unsupportedPrompt shown => s!"unsupported prompt value: {shown}"
  | .inconsistentBases bases =>
      "Cannot create a consistent method resolution\norder (MRO) for bases "
        ++ ", ".intercalate bases
  | .duplicateBase base => s!"duplicate base class {base}"

/-- The message of a refusal. -/
def Refusal.message : Refusal → String
  | .notCount text => s!"not a count: {text}"
  | .numeral error => error.message
  | .takenExtension => ""
  | .blockedExtension label => s!"extension is blocked: {label}"
  | .unknownLevel level => s!"Level '{level}' does not exist"
  | .noCommandNames => "command() needs at least one name"
  | .embeddedNull => "embedded null byte"

namespace Fault

/-- The message of a fault; nothing for one that has no text. -/
def message : Fault → String
  | badLine reason shown => s!"{reason}: {shown}"
  | inCommand command cause =>
      if command.isEmpty then cause.message
      else s!"{command}: {cause.message}"
  | missingKey shown => shown
  | mismatch m => m.message
  | refused r => r.message
  | noAttribute owner name => s!"'{owner}' object has no attribute '{name}'"
  | outside text => text
  | endOfInput text => text
  | interrupt text => text
  | exit text => text
  | invalidOptions _ => ""
  | unreadableConfig path cause => s!"cannot read rc file {path}: {cause}"
  | undecodable error => error.message
  | file error => error.message
  | noHome => "Could not determine home directory."
  | badExtension => ""
  | raised _ text => text
  | unexplained _ text => text
  | textless _ _ => ""

/-- The name of the kind of fault. -/
def kindName : Fault → String
  | badLine _ _ => "ParseError"
  | inCommand _ _ => "HandlerFault"
  | missingKey _ => "KeyError"
  | mismatch _ => "TypeError"
  | refused _ => "ValueError"
  | noAttribute _ _ => "AttributeError"
  | outside _ => "AssertionError"
  | endOfInput _ => "EOFError"
  | interrupt _ => "KeyboardInterrupt"
  | exit _ => "SystemExit"
  | invalidOptions _ => "ConfigurationError"
  | unreadableConfig _ _ => "RcFileError"
  | undecodable _ => "UnicodeDecodeError"
  | file error =>
      match error.trouble with
      | .notFound => "FileNotFoundError"
      | .exists => "FileExistsError"
      | .notDirectory => "NotADirectoryError"
      | .isDirectory => "IsADirectoryError"
      | .nameTooLong => "OSError"
  | noHome => "RuntimeError"
  | badExtension => "PluginValidationError"
  | raised kind _ => kind
  | unexplained kind _ => kind
  | textless kind _ => kind

/-- The fault as it stands in the text of a list: kind and quoted
    message. -/
def shown (f : Fault) : String :=
  match f with
  | missingKey text => s!"{f.kindName}({text})"
  | _ => s!"{f.kindName}({quote f.message})"

/-- A signal passes through every place that contains faults. -/
def isSignal : Fault → Bool
  | interrupt _ => true
  | exit _ => true
  | raised kind _ => kind == "BaseException" || kind == "GeneratorExit"
  | _ => false

/-- The fault of asking for the text, where there is none. -/
def textFault? : Fault → Option Fault
  | textless _ cause => some cause
  | _ => none

/-- What a report of a bad line says: the reason and the quoted line, or
    the fault of asking for them.  Nothing for any other fault. -/
def lineReason? : Fault → Option (Except Fault (String × String))
  | badLine reason shown => some (.ok (reason, shown))
  | unexplained kind _ => some (.error (noAttribute kind "reason"))
  | _ => none

/-- An ordinary fault that can be answered wherever faults are: it has a
    text, and a bad line comes with its reason. -/
def isPlain : Fault → Bool
  | unexplained _ _ => false
  | textless _ _ => false
  | f => !f.isSignal

/-- The fault that a kind, a message and, for two kinds, a reason name.
    `quoted` is the quoted message. -/
def ofKind (kind message quoted reason : String) : Fault :=
  match kind with
  | "ParseError" => badLine reason quoted
  | "HandlerFault" => inCommand reason (raised "ValueError" message)
  | "KeyError" => missingKey quoted
  | "EOFError" => endOfInput message
  | "KeyboardInterrupt" => interrupt message
  | "SystemExit" => exit message
  | _ => raised kind message

end Fault

end LineShell
