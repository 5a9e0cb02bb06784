import LineShell.Line
import LineShell.OrderedMap

/-! # Requests — what user code asks of the session it runs in

    Handlers, hooks and prompts are opaque to the shell, but all that they
    can do to it is to ask.  A request is one such question, with its
    arguments; the answer is a value or a fault. -/

namespace LineShell

/-- What user code asks of the environment. -/
inductive EnvironmentRequest where
  | set (name value : Value)
  | get (name : Value)
  | delete (name : Value)
  | contains (name : Value)
  | size
  | text
  | sameAs (pairs : List (String × Value))
  | names
  | values
  | items
  | update (pairs : List (String × Value))
  | lookup (name fallback : Value)
  | pop (name : Value) (fallback : Option Value)
  | popFirst
  | setDefault (name fallback : Value)
  | clear
  | toMap
  /-- Enters an overlay. -/
  | enter (pairs : List (String × Value))
  /-- Leaves the overlay of an index, with a fault that was raised in
      it. -/
  | leave (index : Nat) (fault : Option Fault)
  deriving Inhabited

/-- What a registry is asked to resolve a name to. -/
inductive Role where
  | handler
  | help
  | completer
  deriving DecidableEq, Repr, Inhabited

/-- What user code asks of the registry. -/
inductive RegistryRequest where
  | scan (className : String) (source : Option String)
  | has (name : String)
  | descriptor (name : String)
  | descriptors
  | resolve (role : Role) (name : String) (args : List Value)
  /-- Asks the help system of the registry. -/
  | ask (args : List Value)
  deriving Inhabited

/-- What user code asks of the reader. -/
inductive ReaderRequest where
  | readLine (prompt : Value) (keys : String)
  | history
  | setHistory (entries : List String)
  | persist
  deriving Inhabited

/-- What is done with a prompt. -/
inductive PromptUse where
  /-- It becomes the prompt, with arguments. -/
  | install
  /-- It becomes the prompt. -/
  | assign
  /-- It is built and rendered once. -/
  | render
  deriving DecidableEq, Repr, Inhabited

/-- A prompt that is no code. -/
inductive PlainPrompt where
  | literal (text : Value)
  | value (v : Value)
  deriving Inhabited

/-- What user code asks of the session. -/
inductive Request where
  /-- The next definition of the running member, with the same call. -/
  | inherited
  /-- Adds a value to the trace. -/
  | trace (v : Value)
  /-- What code keeps under a name. -/
  | kept (name : String)
  /-- Changes what code keeps under a name. -/
  | amend (name : String) (change : Value → Value)
  | fileText (path : String)
  | runLine (line : Value)
  /-- Routes a line that is split already; `raw` is the line as typed. -/
  | dispatch (line : Line) (raw : Value)
  | run
  | quit
  | phase
  | shellText
  | help (args : List Value)
  | escape (args : List Value)
  | environment (r : EnvironmentRequest)
  | emit (v : Value)
  | complete (text line : String) (start : Int)
  /-- Completes the word before a cursor. -/
  | completeWord (text : String) (cursor : Int)
  | completions (names : Option (List String))
  | topics (names : Option (List String))
  | history (entries : Option (List String))
  | register (className : String) (name : Option String) (twice : Bool)
  | block (name : String)
  | prompt (use : PromptUse) (p : PlainPrompt) (args : List Value)
  | promptKind
  | renderPrompt
  | options
  | setOption (name : String) (value : Value)
  | config (name : Option String)
  | report
  | callFirst (hook : String) (params : List (String × Value))
  | callChain (hook key : String) (value : Value)
      (params : List (String × Value))
  | notify (stage : String) (fault : Fault) (line : Value)
  | describe
  | registry (r : RegistryRequest)
  | reader (r : ReaderRequest)
  | loadHistory (path : Option String)
  | saveHistory (path : Option String) (entries : List String)
      (limit : Int)
  | write (text : String)
  | needsPaging (text : String)
  /-- Ends the loop after the current line. -/
  | stop
  /-- The answer of the help system. -/
  | helpText (args : List Value)
  /-- Runs an external program. -/
  | launch (argv : List Value)
  /-- Writes a value as a line. -/
  | writeLine (v : Value)
  /-- The class of the running member's owner. -/
  | className
  /-- A member of the running member's owner that is no function. -/
  | attribute (name : String)
  /-- The text of a value that has one.  Code that asks for the text of a
      fault without one fails by itself, with its cause. -/
  | display (v : Value)
  /-- The text of a value as it stands inside a list. -/
  | shown (v : Value)
  /-- The name of the kind of a value. -/
  | kindOf (v : Value)
  deriving Inhabited

end LineShell
