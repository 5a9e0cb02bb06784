/-! # Lines — where a text breaks

    A line ends at any of the line boundaries of Unicode: line feed,
    carriage return, both in a row, vertical tab, form feed, the file,
    group and record separators, next line, and the line and paragraph
    separators.  A text that ends in a boundary has no empty last line. -/

namespace LineShell.Text

/-- A character that ends a line. -/
def isLineBoundary (c : Char) : Bool :=
  let n := c.toNat
  (0xa ≤ n && n ≤ 0xd) || (0x1c ≤ n && n ≤ 0x1e) || n == 0x85
    || n == 0x2028 || n == 0x2029

/-- Puts a character in front of the first line. -/
def growFirst (c : Char) : List (List Char) → List (List Char)
  | [] => [[c]]
  | line :: rest => (c :: line) :: rest

/-- The pieces between line boundaries, one more than there are
    boundaries. -/
def pieces : List Char → List (List Char)
  | [] => [[]]
  | '\r' :: '\n' :: rest => [] :: pieces rest
  | c :: rest =>
      if isLineBoundary c then [] :: pieces rest
      else growFirst c (pieces rest)

/-- Leaves out the last line when it is empty. -/
def dropEmptyLast : List (List Char) → List (List Char)
  | [] => []
  | [[]] => []
  | line :: rest => line :: dropEmptyLast rest

/-- The lines of a text, without their boundaries. -/
def lines (cs : List Char) : List (List Char) :=
  dropEmptyLast (pieces cs)

/-- Writes every line end as a single line feed. -/
def unifyNewlines : List Char → List Char
  | [] => []
  | '\r' :: '\n' :: rest => '\n' :: unifyNewlines rest
  | '\r' :: rest => '\n' :: unifyNewlines rest
  | c :: rest => c :: unifyNewlines rest

/-- Cuts a text after each line feed, keeping the line feeds. -/
def feedLines : List Char → List (List Char)
  | [] => []
  | '\n' :: rest => ['\n'] :: feedLines rest
  | c :: rest =>
      match rest with
      | [] => [[c]]
      | _ :: _ => growFirst c (feedLines rest)

theorem pieces_ne_nil (cs : List Char) : pieces cs ≠ [] := by
  fun_cases pieces cs with
  | case1 => simp
  | case2 => simp
  | case3 => simp
  | case4 c rest _ _ =>
      cases h : pieces rest <;> simp [growFirst]

end LineShell.Text
