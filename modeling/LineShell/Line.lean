import LineShell.Word
import LineShell.Value
import LineShell.Text.WordChar

/-! # Lines — overlay, command and arguments

    The leading words of the form `NAME=value` are the overlay of a line,
    the next word is its command and the others are its arguments.  Only a
    word whose name and equals sign are written bare counts as an
    assignment.  A name given twice keeps its first place and its last
    value. -/

namespace LineShell

open LineShell.Text

/-- A line that cannot be split, with the reason. -/
structure LineError where
  problem : LineProblem
  line : String
  deriving DecidableEq, Repr

/-- The fault that a bad line raises. -/
def LineError.fault (e : LineError) : Fault :=
  .badLine e.problem.message (quote e.line)

/-- A line by its parts. -/
structure Line where
  command : String
  overlay : OrderedMap Value
  args : List Value
  deriving Inhabited

/-- A line without a command. -/
def Line.isEmpty (l : Line) : Bool :=
  l.command.isEmpty

/-- The name and the value of a word that is an assignment. -/
def Word.assignment? (w : Word) : Option (String × String) :=
  let name := w.chars.takeWhile isNameChar
  match name, w.chars.dropWhile isNameChar with
  | first :: _, '=' :: value =>
      if isNameStart first && name.length < w.plain then
        some (String.ofList name, String.ofList value)
      else none
  | _, _ => none

namespace Line

/-- Sorts words into the parts of a line, after `overlay`. -/
def ofWordsAfter (overlay : OrderedMap Value) : List Word → Line
  | [] => ⟨"", overlay, []⟩
  | w :: rest =>
      match w.assignment? with
      | some (name, value) =>
          ofWordsAfter (overlay.insert name (.text value)) rest
      | none => ⟨w.text, overlay, rest.map fun w => .text w.text⟩

/-- Sorts words into the parts of a line. -/
def ofWords (words : List Word) : Line :=
  ofWordsAfter .empty words

/-- Reads a line. -/
def read (line : String) : Except LineError Line :=
  match tokenize line.toList with
  | .ok words => .ok (ofWords words)
  | .error problem => .error ⟨problem, line⟩

end Line

/-- The texts of the words of a line. -/
def splitWords (line : String) : Except LineError (List String) :=
  match tokenize line.toList with
  | .ok words => .ok (words.map Word.text)
  | .error problem => .error ⟨problem, line⟩

end LineShell
