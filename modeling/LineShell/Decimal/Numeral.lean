import LineShell.Text.Digit
import LineShell.Text.Blank
import LineShell.Text.Quoted

/-! # Numerals — reading whole numbers

    Two readers.  A *count* is written in decimal digits of any script; a
    text that merely looks like digits is refused, and so is one with more
    digits than the limit.  An *option number* is written in ASCII, with
    blanks around it, a sign, single underscores between digits and a
    fraction of zeros. -/

namespace LineShell.Decimal

open LineShell.Text

/-- The most digits that are read as a number. -/
def digitLimit : Nat := 4300

/-- Why a text is no count. -/
inductive NumeralError where
  /-- The text holds a character without a decimal value. -/
  | notDecimal (text : String)
  /-- The text holds more digits than the limit. -/
  | tooLong (count : Nat)
  deriving DecidableEq, Repr

/-- The error in words. -/
def NumeralError.message : NumeralError → String
  | .notDecimal text =>
      s!"invalid literal for int() with base 10: {quote text}"
  | .tooLong count =>
      s!"Exceeds the limit ({digitLimit} digits) for integer string "
        ++ s!"conversion: value has {count} digits; use "
        ++ "sys.set_int_max_str_digits() to increase the limit"

/-- The number that digits denote, most significant first. -/
def ofDigits (digits : List Nat) : Nat :=
  digits.foldl (fun n d => 10 * n + d) 0

/-- The value of a text of decimal digits. -/
def count? (text : String) : Except NumeralError Nat :=
  match text.toList.mapM decimalValue? with
  | none => .error (.notDecimal text)
  | some [] => .error (.notDecimal text)
  | some digits =>
      if digitLimit < digits.length then .error (.tooLong digits.length)
      else .ok (ofDigits digits)

/-- Is every character a digit of some kind, and is there one? -/
def isDigitText (text : String) : Bool :=
  !text.isEmpty && text.toList.all isDigitLike

/-- Why a text is no option number. -/
inductive OptionNumberError where
  | unreadable
  | tooLong
  deriving DecidableEq, Repr

/-- Digits with single underscores between them. -/
def underscored : List Char → Option (List Char)
  | [] => none
  | [c] => if isAsciiDigit c then some [c] else none
  | c :: '_' :: rest =>
      if isAsciiDigit c then (underscored rest).map (c :: ·) else none
  | c :: rest =>
      if isAsciiDigit c then (underscored rest).map (c :: ·) else none
where
  isAsciiDigit (c : Char) : Bool := '0' ≤ c && c ≤ '9'

/-- Cuts off a point and the zeros after it. -/
def dropZeroFraction (cs : List Char) : List Char :=
  let whole := cs.takeWhile (· != '.')
  match cs.dropWhile (· != '.') with
  | '.' :: zeros => if zeros.all (· == '0') then whole else cs
  | _ => cs

/-- The value of an option number. -/
def optionNumber? (text : String) : Except OptionNumberError Int :=
  let cs := trim isSpacing text.toList
  if digitLimit < cs.length then .error .tooLong
  else
    let (negative, body) :=
      match cs with
      | '-' :: rest => (true, rest)
      | '+' :: rest => (false, rest)
      | _ => (false, cs)
    match underscored (dropZeroFraction body) with
    | none => .error .unreadable
    | some digits =>
        let n : Int := ofDigits (digits.map fun c => c.toNat - 48)
        .ok (if negative then -n else n)

end LineShell.Decimal
