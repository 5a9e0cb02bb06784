import LineShell.Text.Blank
import LineShell.Text.Tabs

/-! # Margins — the plain form of an indented text

    Documentation is written indented with the code around it.  Its plain
    form has no tabs, no blanks before the first line, the common margin
    of the other lines cut off, and no empty lines at either end. -/

namespace LineShell.Text

/-- Cuts a text at line feeds. -/
def feedPieces : List Char → List (List Char)
  | [] => [[]]
  | c :: rest =>
      if c == '\n' then [] :: feedPieces rest
      else
        match feedPieces rest with
        | [] => [[c]]
        | piece :: more => (c :: piece) :: more

/-- How far a line is indented; blank lines have no indentation. -/
def indentation? (line : List Char) : Option Nat :=
  if line.all isBlank then none else some (line.takeWhile isBlank).length

/-- The smaller of the known numbers. -/
def least : Option Nat → Option Nat → Option Nat
  | some m, some n => some (min m n)
  | some m, none => some m
  | none, n => n

/-- The common margin of lines. -/
def margin? (group : List (List Char)) : Option Nat :=
  group.foldl (fun m line => least m (indentation? line)) none

/-- Puts line feeds between lines. -/
def joinByFeed : List (List Char) → List Char
  | [] => []
  | [line] => line
  | line :: rest => line ++ '\n' :: joinByFeed rest

/-- Drops empty lines at both ends. -/
def dropEmptyEnds (group : List (List Char)) : List (List Char) :=
  let kept := (group.reverse.dropWhile List.isEmpty).reverse
  kept.dropWhile List.isEmpty

/-- The plain form of a text. -/
def plainDoc (text : String) : String :=
  match feedPieces (fillTabs text.toList) with
  | [] => ""
  | first :: others =>
      let cut := others.map fun line => line.drop ((margin? others).getD 0)
      String.ofList
        (joinByFeed (dropEmptyEnds (trimStart isBlank first :: cut)))

end LineShell.Text
