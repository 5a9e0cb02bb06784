import LineShell.Text.Tabs

/-! # Outputs — where results go

    A stream takes every text as it is.  A console leaves out control
    characters, fills tabs up to the next column, and pages a text that
    has at least as many lines as the terminal is high. -/

namespace LineShell

/-- What a console writes to. -/
structure Console where
  terminal : Bool
  height : Nat
  pager : Bool
  deriving DecidableEq, Repr, Inhabited

/-- Where results go. -/
inductive Output where
  | stream
  | console (c : Console)
  deriving DecidableEq, Repr, Inhabited

/-- What a written text becomes. -/
inductive Written where
  | printed (text : String)
  | paged (text : String)
  deriving DecidableEq, Repr, Inhabited

namespace Console

/-- A control character that a console leaves out. -/
def isDropped (c : Char) : Bool :=
  let n := c.toNat
  n == 7 || n == 8 || (11 ≤ n && n ≤ 13)

/-- A text as a console writes it. -/
def plainText (text : String) : String :=
  String.ofList
    (Text.fillTabs (text.toList.filter fun c => !isDropped c))

/-- Has the text at least as many lines as the terminal is high? -/
def needsPaging (c : Console) (text : String) : Bool :=
  c.terminal && c.height ≤ text.toList.count '\n'

/-- Writes a text. -/
def write (c : Console) (text : String) : Written :=
  if c.pager && c.needsPaging text then .paged (plainText text)
  else .printed (plainText text)

end Console

namespace Output

/-- The name of the kind of output. -/
def kindName : Output → String
  | stream => "StreamOutput"
  | console _ => "ConsoleOutput"

/-- Writes a text. -/
def write : Output → String → Written
  | stream, text => .printed text
  | console c, text => c.write text

/-- The console that is used when nothing else is said. -/
def standard : Output := console ⟨false, 25, true⟩

end Output

end LineShell
