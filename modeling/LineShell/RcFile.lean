import LineShell.OrderedMap
import LineShell.Value
import LineShell.Text.Blank
import LineShell.Text.Lines
import LineShell.Text.WordChar

/-! # Configuration text — assignments, flags and continuations

    A configuration is written line by line.  A number sign starts a
    comment; a line that ends in a backslash goes on with the next; what
    is left of a group of such lines, joined by single spaces, is one
    statement: `name = value`, `name` for true, or `noname` for false,
    stored under `name`.  Later statements override earlier ones and a
    name keeps its first place.  A statement of no form is reported with
    the number of its first line and changes nothing. -/

namespace LineShell

open LineShell.Text

/-- What a name is set to. -/
inductive Setting where
  | text (s : String)
  | flag (b : Bool)
  deriving DecidableEq, Repr, Inhabited

/-- A setting as a value. -/
def Setting.value : Setting → Value
  | .text s => .text s
  | .flag b => .bool b

/-- Settings by name, in order of first appearance. -/
abbrev Config := OrderedMap Setting

namespace Config

/-- A line of the text: its number, what is left of it without comment,
    outer blanks and continuation mark, and whether it goes on. -/
structure Part where
  number : Nat
  chars : List Char
  continued : Bool
  deriving DecidableEq, Repr

/-- The part that a line holds. -/
def partOf (number : Nat) (line : List Char) : Part :=
  let content := strip (line.takeWhile (· != '#'))
  match content.getLast? with
  | some '\\' => ⟨number, strip content.dropLast, true⟩
  | _ => ⟨number, content, false⟩

/-- The parts of consecutive lines, numbered from `number`. -/
def partsFrom (number : Nat) : List (List Char) → List Part
  | [] => []
  | line :: rest => partOf number line :: partsFrom (number + 1) rest

/-- Groups of parts: each ends with the first part that does not go on,
    or at the end of the text. -/
def groups : List Part → List (List Part)
  | [] => []
  | part :: rest =>
      if part.continued then
        match groups rest with
        | [] => [[part]]
        | group :: more => (part :: group) :: more
      else [part] :: groups rest

/-- Joins pieces by single spaces. -/
def joinBySpace : List (List Char) → List Char
  | [] => []
  | [piece] => piece
  | piece :: rest => piece ++ ' ' :: joinBySpace rest

/-- What the parts of a group say together. -/
def joined (group : List Part) : List Char :=
  joinBySpace ((group.map Part.chars).filter fun chars => !chars.isEmpty)

/-- The number of the first line of a group. -/
def firstNumber (group : List Part) : Nat :=
  (group.head?.map Part.number).getD 0

/-- A statement, with the number of its first line: a name is set, or the
    statement is of no form. -/
inductive Statement where
  | set (name : String) (setting : Setting)
  | malformed (number : Nat) (text : String)
  deriving DecidableEq, Repr

/-- A character that a name may go on with. -/
def isConfigNameChar (c : Char) : Bool :=
  isWordChar c || c == '.' || c == '-'

/-- Cuts a name off the front, if there is one. -/
def name? (cs : List Char) : Option (List Char × List Char) :=
  match cs with
  | first :: rest =>
      if isNameStart first then
        some (first :: rest.takeWhile isConfigNameChar,
          rest.dropWhile isConfigNameChar)
      else none
  | [] => none

/-- The setting that a flag stands for. -/
def flagStatement (name : List Char) : Statement :=
  match name with
  | 'n' :: 'o' :: c :: rest =>
      .set (String.ofList (c :: rest)) (.flag false)
  | _ => .set (String.ofList name) (.flag true)

/-- What a joined group says. -/
def statement (number : Nat) (cs : List Char) : Statement :=
  match name? cs with
  | some (name, rest) =>
      if rest.isEmpty then flagStatement name
      else
        match rest.dropWhile isBlank with
        | '=' :: value =>
            .set (String.ofList name) (.text (String.ofList (strip value)))
        | _ => .malformed number (String.ofList cs)
  | none => .malformed number (String.ofList cs)

/-- The statements of a text, in order.  Blank groups say nothing. -/
def statements (text : List Char) : List Statement :=
  (groups (partsFrom 1 (lines text))).filterMap fun group =>
    let cs := joined group
    if cs.isEmpty then none else some (statement (firstNumber group) cs)

/-- What one statement changes. -/
def apply (config : Config) : Statement → Config
  | .set name setting => config.insert name setting
  | .malformed _ _ => config

/-- The configuration of a text. -/
def read (text : String) : Config :=
  (statements text.toList).foldl apply .empty

/-- The malformed statements of a text: first line and content. -/
def malformed (text : String) : List (Nat × String) :=
  (statements text.toList).filterMap fun
    | .malformed number content => some (number, content)
    | .set _ _ => none

end Config

end LineShell
