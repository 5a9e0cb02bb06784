import LineShell.Line

/-! # Lines of items — when a rewritten line is no text

    Hooks and overrides may hand over anything in place of a line.  A list
    is read item by item as if its items were characters: separators, the
    comment mark and double quotes work as in a text, a backslash outside
    double quotes and a single quote do not, and an item of a word may be
    a text of any length but nothing else.  A mapping has no first item,
    and nothing else has a length. -/

namespace LineShell

open LineShell.Text

namespace Line

/-- A word of items in progress. -/
structure ItemDraft where
  items : List Value
  plain : Nat
  bare : Bool

/-- Where the reader of items stands. -/
inductive ItemMode where
  | gap
  | word (d : ItemDraft)
  | double (d : ItemDraft)
  | doubleEscape (d : ItemDraft)

/-- Why a list cannot be read as a line. -/
inductive ItemError where
  | fault (f : Fault)
  | openDoubleQuote

/-- The word that a draft makes: all its items must be texts. -/
def ItemDraft.word (d : ItemDraft) (me : Identity) :
    Except ItemError Word :=
  let rec join (index : Nat) : List Value → Except ItemError (List Char)
    | [] => .ok []
    | v :: rest =>
        match v.asText? with
        | some s => (join (index + 1) rest).map (s.toList ++ ·)
        | none =>
            .error (.fault (.mismatch (.notText index (v.kindName me))))
  (join 0 d.items).map fun chars => ⟨chars, d.plain⟩

/-- The item as one character, if it is one. -/
def itemChar? (v : Value) : Option Char :=
  match v.asText?.map String.toList with
  | some [c] => some c
  | _ => none

/-- Reads the items of a list as the characters of a line. -/
def readItems (me : Identity) :
    ItemMode → List Value → Except ItemError (List Word)
  | .gap, [] => .ok []
  | .word d, [] => (d.word me).map fun w => [w]
  | .double _, [] => .error .openDoubleQuote
  | .doubleEscape _, [] => .error .openDoubleQuote
  | .double d, v :: rest =>
      match itemChar? v with
      | some '"' => readItems me (.word d) rest
      | some '\\' => readItems me (.doubleEscape d) rest
      | _ => readItems me (.double { d with items := d.items ++ [v] }) rest
  | .doubleEscape d, v :: rest =>
      if v.isUnhashable then
        .error (.fault (.mismatch (.unhashable (v.kindName me))))
      else
        match itemChar? v with
        | some c =>
            if c == '\n' then readItems me (.double d) rest
            else if isDoubleEscaped c then
              readItems me (.double { d with items := d.items ++ [v] }) rest
            else
              readItems me
                (.double { d with items := d.items ++ [.text "\\", v] }) rest
        | none =>
            readItems me
              (.double { d with items := d.items ++ [.text "\\", v] }) rest
  | .gap, v :: rest =>
      if v.isUnhashable then
        .error (.fault (.mismatch (.unhashable (v.kindName me))))
      else
        match itemChar? v with
        | some '#' => .ok []
        | some c =>
            if isSeparator c then readItems me .gap rest
            else if c == '\\' then
              .error (.fault (.noAttribute "list" "startswith"))
            else if c == '\'' then
              .error (.fault (.noAttribute "list" "find"))
            else if c == '"' then readItems me (.double ⟨[], 0, false⟩) rest
            else readItems me (.word ⟨[v], 1, true⟩) rest
        | none => readItems me (.word ⟨[v], 1, true⟩) rest
  | .word d, v :: rest =>
      let grown : ItemDraft :=
        ⟨d.items ++ [v], if d.bare then d.plain + 1 else d.plain, d.bare⟩
      if v.isUnhashable then
        .error (.fault (.mismatch (.unhashable (v.kindName me))))
      else
        match itemChar? v with
        | some c =>
            if isSeparator c then
              match d.word me with
              | .error e => .error e
              | .ok w => (readItems me .gap rest).map (w :: ·)
            else if c == '\\' then
              .error (.fault (.noAttribute "list" "startswith"))
            else if c == '\'' then
              .error (.fault (.noAttribute "list" "find"))
            else if c == '"' then
              readItems me (.double { d with bare := false }) rest
            else readItems me (.word grown) rest
        | none => readItems me (.word grown) rest

/-- Reads whatever stands in place of a line. -/
def ofValue (me : Identity) (v : Value) : Except Fault Line :=
  match v.asText? with
  | some s =>
      match read s with
      | .ok line => .ok line
      | .error e => .error e.fault
  | none =>
      match v with
      | .list items =>
          match readItems me .gap items with
          | .ok words => .ok (ofWords words)
          | .error (.fault f) => .error f
          | .error .openDoubleQuote =>
              .error (.badLine LineProblem.openDoubleQuote.message
                (v.shown me))
      | .map [] => .ok (ofWords [])
      | .map _ => .error (.missingKey "0")
      | v => .error (.mismatch (.noLength (v.kindName me)))

end Line

end LineShell
