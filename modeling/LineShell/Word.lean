/-! # Words — splitting a line by the rules of a command shell

    A line is read once, character by character.  Spaces, tabs, carriage
    returns and line feeds separate words; a number sign where no word is
    in progress starts a comment; a backslash takes the next character as
    it is, and together with a line feed it vanishes; single quotes take
    everything as it is; between double quotes a backslash has effect only
    before a backslash, a double quote, a dollar sign, a backtick or a
    line feed.

    The reader is an automaton: `Mode` says where it stands, `Mode.next`
    what one character does, `Mode.close` what the end of the line means.
    Reading two texts in a row is reading their concatenation
    (`advance_append`), and a backslash with a line feed leaves a mode as
    it was (`next_next_lineFeed`). -/

namespace LineShell

/-- A word: its text, and how many of its leading characters were written
    without any quote or escape before or around them. -/
structure Word where
  chars : List Char
  plain : Nat
  deriving DecidableEq, Repr, Inhabited

/-- The text of a word. -/
def Word.text (w : Word) : String :=
  String.ofList w.chars

/-- Why a line cannot be split. -/
inductive LineProblem where
  | openSingleQuote
  | openDoubleQuote
  | nothingEscaped
  deriving DecidableEq, Repr

/-- The reason in words. -/
def LineProblem.message : LineProblem → String
  | .openSingleQuote => "unterminated single quote"
  | .openDoubleQuote => "unterminated double quote"
  | .nothingEscaped => "no escaped character"

/-- A word in progress; `bare` until the first quote or escape. -/
structure Draft where
  chars : List Char
  plain : Nat
  bare : Bool
  deriving DecidableEq, Repr, Inhabited

namespace Draft

/-- A word about to begin. -/
def fresh : Draft := ⟨[], 0, true⟩

/-- Adds a character that stands for itself. -/
def addPlain (d : Draft) (c : Char) : Draft :=
  { d with
    chars := d.chars ++ [c]
    plain := if d.bare then d.plain + 1 else d.plain }

/-- Adds a quoted character. -/
def addQuoted (d : Draft) (c : Char) : Draft :=
  { d with chars := d.chars ++ [c] }

/-- From here on the word is not bare. -/
def quoted (d : Draft) : Draft :=
  { d with bare := false }

/-- The finished word. -/
def word (d : Draft) : Word := ⟨d.chars, d.plain⟩

end Draft

/-- Where the reader stands. -/
inductive Mode where
  /-- Between words. -/
  | gap
  /-- In a comment. -/
  | comment
  /-- In a word, outside quotes. -/
  | word (d : Draft)
  /-- After a backslash outside quotes; the word is there if one is in
      progress. -/
  | escape (d : Option Draft)
  /-- Between single quotes. -/
  | single (d : Draft)
  /-- Between double quotes. -/
  | double (d : Draft)
  /-- After a backslash between double quotes. -/
  | doubleEscape (d : Draft)
  deriving DecidableEq, Repr, Inhabited

/-- A character that separates words. -/
def isSeparator (c : Char) : Bool :=
  c == ' ' || c == '\t' || c == '\r' || c == '\n'

/-- A character that a backslash escapes between double quotes. -/
def isDoubleEscaped (c : Char) : Bool :=
  c == '\\' || c == '"' || c == '$' || c.toNat == 0x60

namespace Mode

/-- What a character does inside a word, or as the first of one. -/
def inWord (d : Draft) (c : Char) : Mode :=
  if c == '\'' then single d.quoted
  else if c == '"' then double d.quoted
  else word (d.addPlain c)

/-- What one character does: where the reader stands after it, and the
    word that it ends, if it ends one. -/
def next : Mode → Char → Mode × Option Word
  | gap, c =>
      if isSeparator c then (gap, none)
      else if c == '\\' then (escape none, none)
      else if c == '#' then (comment, none)
      else (inWord .fresh c, none)
  | comment, _ => (comment, none)
  | word d, c =>
      if isSeparator c then (gap, some d.word)
      else if c == '\\' then (escape (some d), none)
      else (inWord d c, none)
  | escape none, c =>
      if c == '\n' then (gap, none)
      else (word (Draft.fresh.quoted.addQuoted c), none)
  | escape (some d), c =>
      if c == '\n' then (word d, none)
      else (word (d.quoted.addQuoted c), none)
  | single d, c =>
      if c == '\'' then (word d, none) else (single (d.addQuoted c), none)
  | double d, c =>
      if c == '"' then (word d, none)
      else if c == '\\' then (doubleEscape d, none)
      else (double (d.addQuoted c), none)
  | doubleEscape d, c =>
      if isDoubleEscaped c then (double (d.addQuoted c), none)
      else if c == '\n' then (double d, none)
      else (double ((d.addQuoted '\\').addQuoted c), none)

/-- What the end of the line means: the last word, if one is in progress,
    or a problem. -/
def close : Mode → Except LineProblem (Option Word)
  | gap => .ok none
  | comment => .ok none
  | word d => .ok (some d.word)
  | escape _ => .error .nothingEscaped
  | single _ => .error .openSingleQuote
  | double _ => .error .openDoubleQuote
  | doubleEscape _ => .error .openDoubleQuote

/-- Reads characters: where the reader stands after them, and the words
    that they end. -/
def advance (m : Mode) : List Char → Mode × List Word
  | [] => (m, [])
  | c :: rest =>
      let (m', w) := m.next c
      let (m'', ws) := m'.advance rest
      (m'', w.toList ++ ws)

/-- The words from here to the end of the line. -/
def words (m : Mode) (cs : List Char) : Except LineProblem (List Word) :=
  let (m', ws) := m.advance cs
  m'.close.map fun last => ws ++ last.toList

@[simp] theorem advance_nil (m : Mode) : m.advance [] = (m, []) := rfl

theorem advance_cons (m : Mode) (c : Char) (cs : List Char) :
    m.advance (c :: cs) =
      (((m.next c).1.advance cs).1,
        (m.next c).2.toList ++ ((m.next c).1.advance cs).2) := rfl

/-- Reading two texts in a row is reading their concatenation. -/
theorem advance_append (m : Mode) (a b : List Char) :
    m.advance (a ++ b) =
      (((m.advance a).1.advance b).1,
        (m.advance a).2 ++ ((m.advance a).1.advance b).2) := by
  induction a generalizing m with
  | nil => simp
  | cons c cs ih =>
      rw [List.cons_append, advance_cons, advance_cons, ih]
      simp [List.append_assoc]

/-- Outside quotes and between double quotes a backslash with a line feed
    changes nothing. -/
theorem next_next_lineFeed (m : Mode)
    (h : m = gap ∨ ∃ d, m = word d ∨ m = double d) :
    ((m.next '\\').1.next '\n') = (m, none) ∧ (m.next '\\').2 = none := by
  rcases h with rfl | ⟨d, rfl | rfl⟩ <;>
    simp [next, isSeparator, isDoubleEscaped]

end Mode

/-- Splits a line into words. -/
def tokenize (cs : List Char) : Except LineProblem (List Word) :=
  Mode.gap.words cs

end LineShell
