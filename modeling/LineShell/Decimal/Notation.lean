import LineShell.Decimal.Shortest

/-! # Decimal notation — how a floating-point number is written

    Shortest digits, positional notation for leading exponents from -4 to
    15 and scientific notation outside.  A whole number keeps a final
    `.0` in positional notation; an exponent has a sign and two digits at
    least. -/

namespace LineShell.Decimal

/-- The choices of a notation. -/
structure Style where
  lowestPositional : Int
  highestPositional : Int
  wholeSuffix : String
  exponentDigits : Nat
  infinity : String
  notANumber : String

/-- The notation of values in messages and answers. -/
def Style.plain : Style where
  lowestPositional := -4
  highestPositional := 15
  wholeSuffix := ".0"
  exponentDigits := 2
  infinity := "inf"
  notANumber := "nan"

/-- Drops final zeros into the exponent. -/
def Scaled.trim : Nat → Scaled → Scaled
  | 0, s => s
  | fuel + 1, s =>
      if s.digits != 0 && s.digits % 10 == 0 then
        Scaled.trim fuel ⟨s.digits / 10, s.exponent + 1⟩
      else s

/-- Zeros in front, up to a width. -/
def padZeros (width : Nat) (text : String) : String :=
  "".pushn '0' (width - text.length) ++ text

/-- Writes a positive decimal in a style. -/
def Style.write (style : Style) (s : Scaled) : String :=
  let s := s.trim 400
  let digits := toString s.digits
  let lead : Int := s.exponent + digits.length - 1
  if style.lowestPositional ≤ lead && lead ≤ style.highestPositional then
    if 0 ≤ s.exponent then
      digits ++ "".pushn '0' s.exponent.toNat ++ style.wholeSuffix
    else if 0 ≤ lead then
      let whole := lead.toNat + 1
      (digits.take whole).toString ++ "." ++ (digits.drop whole).toString
    else
      "0." ++ "".pushn '0' ((-lead).toNat - 1) ++ digits
  else
    let sign := if lead < 0 then "-" else "+"
    let tail := (digits.drop 1).toString
    (digits.take 1).toString ++ (if tail.isEmpty then "" else "." ++ tail)
      ++ "e" ++ sign ++ padZeros style.exponentDigits (toString lead.natAbs)

/-- The text of a floating-point number. -/
def floatText (style : Style) (x : Float) : String :=
  let bits : Nat := x.toBits.toNat
  let unit := Nat.pow 2 52
  let sign := if bits.testBit 63 then "-" else ""
  let biased : Nat := bits / unit % 2048
  let low : Nat := bits % unit
  if biased == 2047 then
    if low == 0 then sign ++ style.infinity else style.notANumber
  else if biased == 0 && low == 0 then
    sign ++ "0" ++ style.wholeSuffix
  else if biased == 0 then
    sign ++ style.write (Fraction.shortest ⟨low, -1074, false⟩)
  else
    sign ++ style.write (Fraction.shortest
      ⟨low + unit, Int.ofNat biased - 1075, low == 0 && biased != 1⟩)

end LineShell.Decimal
