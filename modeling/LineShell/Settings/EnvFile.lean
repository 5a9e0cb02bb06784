import LineShell.Text.Blank
import LineShell.OrderedMap

/-! # Variable files — bindings of names to values, one a line

    A binding is a name, an equals sign and a value, after an optional
    word `export`.  A value is bare, between apostrophes, or between
    double quotes; bare values end before a comment.  A line that is no
    binding is passed over.  `${name}` and `${name:-text}` in a value
    stand for the value of a variable. -/

namespace LineShell

open LineShell.Text

namespace EnvFile

/-- A binding: a name, and its value if there is an equals sign. -/
structure Binding where
  name : String
  value : Option String
  deriving DecidableEq, Repr, Inhabited

/-- The end of a line. -/
def isLineEnd (c : Char) : Bool :=
  c == '\n' || c == '\r'

/-- A blank within a line. -/
def isInlineBlank (c : Char) : Bool :=
  isBlank c && !isLineEnd c

/-- Drops the blanks of a line. -/
def skipBlanks (cs : List Char) : List Char :=
  cs.dropWhile isInlineBlank

/-- Drops the rest of a line and its end. -/
def skipLine (cs : List Char) : List Char :=
  match cs.dropWhile fun c => !isLineEnd c with
  | [] => []
  | _ :: rest => rest

/-- Drops the word `export` with the blanks after it. -/
def skipExport (cs : List Char) : List Char :=
  match cs with
  | 'e' :: 'x' :: 'p' :: 'o' :: 'r' :: 't' :: c :: rest =>
      if isInlineBlank c then skipBlanks rest else cs
  | _ => cs

/-- A character of a bare name. -/
def isNamePart (c : Char) : Bool :=
  !(c == '=' || c == '#' || isBlank c)

/-- Cuts a name off the front; a comment has none. -/
def name? (cs : List Char) :
    Option (Option (List Char) × List Char) :=
  match cs with
  | '#' :: _ => some (none, cs)
  | '\'' :: rest =>
      let name := rest.takeWhile (· != '\'')
      match name, rest.dropWhile (· != '\'') with
      | _ :: _, _ :: rest => some (some name, rest)
      | _, _ => none
  | _ =>
      match cs.takeWhile isNamePart with
      | [] => none
      | name => some (some name, cs.dropWhile isNamePart)

/-- Cuts a quoted value off the front, up to the first mark without a
    backslash before it, or else up to the last mark.  `seen` is what was
    read so far, backwards. -/
def quoted? (mark : Char) (seen : List Char)
    (last : Option (List Char × List Char)) :
    List Char → Option (List Char × List Char)
  | [] => last
  | '\\' :: c :: rest =>
      if c == mark then
        quoted? mark (c :: '\\' :: seen)
          (some (('\\' :: seen).reverse, rest)) rest
      else quoted? mark ('\\' :: seen) last (c :: rest)
  | c :: rest =>
      if c == mark then some (seen.reverse, rest)
      else quoted? mark (c :: seen) last rest

/-- What a letter after a backslash stands for between double quotes. -/
def doubleEscape? (c : Char) : Option Char :=
  match c with
  | '\\' => some '\\'
  | '\'' => some '\''
  | '"' => some '"'
  | 'a' => some (Char.ofNat 7)
  | 'b' => some (Char.ofNat 8)
  | 'f' => some (Char.ofNat 12)
  | 'n' => some '\n'
  | 'r' => some '\r'
  | 't' => some '\t'
  | 'v' => some (Char.ofNat 11)
  | _ => none

/-- What a letter after a backslash stands for between apostrophes. -/
def singleEscape? (c : Char) : Option Char :=
  match c with
  | '\\' => some '\\'
  | '\'' => some '\''
  | _ => none

/-- Replaces escapes. -/
def unescape (escape? : Char → Option Char) : List Char → List Char
  | [] => []
  | '\\' :: c :: rest =>
      match escape? c with
      | some d => d :: unescape escape? rest
      | none => '\\' :: unescape escape? (c :: rest)
  | c :: rest => c :: unescape escape? rest

/-- The part of a bare value before a comment. -/
def beforeComment : List Char → List Char
  | [] => []
  | c :: rest =>
      if isBlank c && ((rest.dropWhile isBlank).head? == some '#') then []
      else c :: beforeComment rest

/-- Cuts a value off the front. -/
def value? (cs : List Char) : Option (List Char × List Char) :=
  match cs with
  | '\'' :: rest =>
      (quoted? '\'' [] none rest).map fun pair =>
        (unescape singleEscape? pair.1, pair.2)
  | '"' :: rest =>
      (quoted? '"' [] none rest).map fun pair =>
        (unescape doubleEscape? pair.1, pair.2)
  | _ =>
      let bare := cs.takeWhile fun c => !isLineEnd c
      some (trimEnd isBlank (beforeComment bare),
        cs.dropWhile fun c => !isLineEnd c)

/-- What is left after a comment, if there is one. -/
def skipComment (cs : List Char) : List Char :=
  match skipBlanks cs with
  | '#' :: rest => rest.dropWhile fun c => !isLineEnd c
  | _ => cs

/-- Drops the end of a line; anything else is no end. -/
def lineEnd? (cs : List Char) : Option (List Char) :=
  match skipBlanks cs with
  | [] => some []
  | '\r' :: '\n' :: rest => some rest
  | c :: rest => if isLineEnd c then some rest else none

/-- Reads one binding: what it says and what is left.  Of a line that is
    no binding the rest is passed over. -/
def binding (cs : List Char) : Option Binding × List Char :=
  match name? (skipExport cs) with
  | none => (none, skipLine (skipExport cs))
  | some (name, rest) =>
      let rest := skipBlanks rest
      let valued : Option (Option (List Char) × List Char) :=
        match rest with
        | '=' :: after =>
            (value? (skipBlanks after)).map fun pair => (some pair.1, pair.2)
        | _ => some (none, rest)
      match valued with
      | none => (none, skipLine rest)
      | some (value, rest) =>
          match lineEnd? (skipComment rest) with
          | none => (none, skipLine (skipComment rest))
          | some rest =>
              (name.map fun name =>
                ⟨String.ofList name, value.map String.ofList⟩, rest)

/-- Reads at most so many bindings. -/
def bindingsWithin : Nat → List Char → List Binding
  | 0, _ => []
  | n + 1, cs =>
      match cs.dropWhile isBlank with
      | [] => []
      | c :: rest =>
          let (b, left) := binding (c :: rest)
          b.toList ++ bindingsWithin n left

/-- The bindings of a text. -/
def bindings (text : String) : List Binding :=
  bindingsWithin (text.length + 1) text.toList

/-- Cuts a reference off the front: a name, a text for the case that
    there is no such variable, and what is left. -/
def reference? (cs : List Char) :
    Option (List Char × List Char × List Char) :=
  match cs with
  | '$' :: '\x7b' :: rest =>
      let isPlain := fun c : Char => c.toNat != 0x7d && c != ':'
      let name := rest.takeWhile isPlain
      match rest.dropWhile isPlain with
      | ':' :: '-' :: more =>
          let isInside := fun c : Char => c.toNat != 0x7d
          match more.dropWhile isInside with
          | _ :: left => some (name, more.takeWhile isInside, left)
          | [] => none
      | ':' :: _ => none
      | _ :: left => some (name, [], left)
      | [] => none
  | _ => none

/-- Replaces references in at most so many steps. -/
def resolveWithin (value? : String → Option String) :
    Nat → List Char → List Char
  | 0, cs => cs
  | _ + 1, [] => []
  | n + 1, c :: rest =>
      match reference? (c :: rest) with
      | some (name, fallback, left) =>
          (match value? (String.ofList name) with
            | some text => text.toList
            | none => fallback) ++ resolveWithin value? n left
      | none => c :: resolveWithin value? n rest

/-- Replaces the references in a value. -/
def resolve (value? : String → Option String) (text : String) : String :=
  String.ofList (resolveWithin value? text.length text.toList)

/-- The variables of bindings: each may refer to the variables of the
    surroundings and to those before it, the latter first. -/
def variablesOf (surroundings : List (String × String))
    (bindings : List Binding) : OrderedMap (Option String) :=
  bindings.foldl
    (fun known b =>
      let value? := fun name =>
        match known.get? name with
        | some found => some (found.getD "")
        | none => OrderedMap.find name surroundings
      known.insert b.name (b.value.map (resolve value?)))
    .empty

/-- The variables of a text. -/
def read (surroundings : List (String × String)) (text : String) :
    OrderedMap (Option String) :=
  variablesOf surroundings (bindings text)

end EnvFile

end LineShell
