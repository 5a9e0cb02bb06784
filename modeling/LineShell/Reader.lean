import LineShell.History
import LineShell.Value

/-! # Readers — where lines come from

    A reader hands over one line a call until its source is exhausted, and
    keeps a history of what it handed over.  A *script* is a finite source
    of lines and faults.  The *keyboard* reads what is typed at each call:
    return ends the line, an end mark on an empty line ends the input and
    an interrupt mark interrupts. -/

namespace LineShell

open LineShell.Text

/-- What a script holds: lines, and faults that come up in their place. -/
inductive SourceItem where
  | line (text : String)
  | fault (f : Fault)
  deriving DecidableEq, Repr, Inhabited

/-- Where a reader takes its lines from. -/
inductive Source where
  /-- What is left of a script, and whether prompts are written out. -/
  | script (items : List SourceItem) (echo : Bool)
  | keyboard
  deriving DecidableEq, Repr, Inhabited

/-- A reader: its source, its history file, the most entries it keeps
    there, and its history. -/
structure Reader where
  source : Source
  histfile : Option Path
  histsize : Int
  history : List String
  deriving Inhabited

/-- Takes one line end off: a line feed, then a carriage return. -/
def dropLineEnd (cs : List Char) : List Char :=
  let cs := if cs.getLast? = some '\n' then cs.dropLast else cs
  if cs.getLast? = some '\r' then cs.dropLast else cs

/-- The lines of a text that breaks after line feeds only. -/
def Source.ofText (text : String) (echo : Bool) : Source :=
  .script ((feedLines text.toList).map fun cs => .line (String.ofList cs))
    echo

namespace Reader

/-- The name of the kind of reader. -/
def kindName (r : Reader) : String :=
  match r.source with
  | .script .. => "StreamLineReader"
  | .keyboard => "PromptToolkitLineReader"

/-- A reader with the history of its file. -/
def build (files : FileTree) (homes : Homes) (source : Source)
    (histfile : Option Path) (histsize : Int) :
    Except Fault Reader × List Event :=
  let (entries, events) := History.load files homes histfile
  (entries.map fun entries => ⟨source, histfile, histsize, entries⟩, events)

/-- The fault at the end of a source. -/
def atEnd : Fault := .endOfInput ""

/-- How a fault of a source comes up: a source that says it has no next
    line has ended. -/
def sourceFault : Fault → Fault
  | .raised "StopIteration" _ => atEnd
  | f => f

/-- Adds a line to the history unless it is blank. -/
def remember (r : Reader) (line : String) : Reader :=
  if isBlankText line then r
  else { r with history := r.history ++ [line] }

/-- Adds a typed line to the history unless it is empty or repeats the
    newest entry. -/
def rememberTyped (r : Reader) (line : String) : Reader :=
  if line.isEmpty || r.history.getLast? == some line then r
  else { r with history := r.history ++ [line] }

/-- Takes the next line of a script. -/
def next (r : Reader) (echo : Bool) :
    List SourceItem → Except Fault String × Reader
  | [] => (.error atEnd, r)
  | .fault f :: rest =>
      (.error (sourceFault f), { r with source := .script rest echo })
  | .line text :: rest =>
      let line := String.ofList (dropLineEnd text.toList)
      (.ok line, { r with source := .script rest echo }.remember line)

/-- What typed keys come to: a line, or the fault of a mark. -/
def typed (line : List Char) : List Char → Except Fault String
  | [] => .error atEnd
  | c :: rest =>
      if c == '\r' || c == '\n' then .ok (String.ofList line)
      else if c.toNat == 3 then .error (.interrupt "")
      else if c.toNat == 4 then
        if line.isEmpty then .error atEnd else typed line rest
      else typed (line ++ [c]) rest

/-- Reads one line: what was read, the reader afterwards, and what of the
    prompt is to be written out.  Only a text can be written out. -/
def read (me : Identity) (r : Reader) (prompt : Value) (keys : String) :
    Except Fault String × Reader × String :=
  match r.source with
  | .keyboard =>
      match typed [] keys.toList with
      | .ok line => (.ok line, r.rememberTyped line, "")
      | .error f => (.error f, r, "")
  | .script items true =>
      match prompt.asText? with
      | some text =>
          let (result, r) := r.next true items
          (result, r, text)
      | none =>
          (.error (.mismatch (.notPromptText (prompt.kindName me))), r, "")
  | .script items false =>
      let (result, r) := r.next false items
      (result, r, "")

/-- How many items are left to read. -/
def remaining (r : Reader) : Nat :=
  match r.source with
  | .script items _ => items.length
  | .keyboard => 0

/-- Writes the history to its file. -/
def persist (r : Reader) (files : FileTree) (homes : Homes) :
    FileTree × Except Fault Unit × List Event :=
  History.save files homes r.history r.histsize r.histfile

end Reader

end LineShell
