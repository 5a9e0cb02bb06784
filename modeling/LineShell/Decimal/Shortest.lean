/-! # Shortest decimals — the fewest digits that read back

    A binary fraction `m · 2^q` stands for every real number nearer to it
    than to its neighbours.  Its shortest decimal is the one with the
    fewest digits inside that interval, and of those the nearest to the
    fraction itself; an exact tie goes to the even digit. -/

namespace LineShell.Decimal

/-- A positive binary fraction `m · 2^q`; `narrow` says that the gap below
    it is half the gap above. -/
structure Fraction where
  m : Nat
  q : Int
  narrow : Bool
  deriving DecidableEq, Repr

/-- Digits and a power of ten: `digits · 10^exponent`. -/
structure Scaled where
  digits : Nat
  exponent : Int
  deriving DecidableEq, Repr

namespace Fraction

/-- Quarters of units: the value, the lower end and the upper end of the
    interval over one denominator. -/
def bounds (f : Fraction) : Nat × Nat × Nat × Nat :=
  let up := Nat.pow 2 f.q.toNat
  let down := Nat.pow 2 (-f.q).toNat
  let low := if f.narrow then 4 * f.m - 1 else 4 * f.m - 2
  (4 * f.m * up, low * up, (4 * f.m + 2) * up, 4 * down)

/-- Compares `digits · 10^exponent` with a quotient. -/
def compareScaled (s : Scaled) (num den : Nat) : Ordering :=
  compare (s.digits * Nat.pow 10 s.exponent.toNat * den)
    (num * Nat.pow 10 (-s.exponent).toNat)

/-- Does the decimal lie in the interval?  The ends belong to it exactly
    when the fraction is even. -/
def accepts (f : Fraction) (s : Scaled) : Bool :=
  let (_, low, high, den) := f.bounds
  let even := f.m % 2 == 0
  let aboveLow := compareScaled s low den
  let belowHigh := compareScaled s high den
  (aboveLow == .gt || (even && aboveLow == .eq))
    && (belowHigh == .lt || (even && belowHigh == .eq))

/-- The exponent of the leading digit of a quotient below one. -/
def leadingBelowOne (num den : Nat) : Nat → Int → Int
  | 0, e => e
  | fuel + 1, e =>
      if num * 10 < den then leadingBelowOne (num * 10) den fuel (e - 1)
      else e

/-- The exponent of the leading decimal digit. -/
def leading (f : Fraction) : Int :=
  let (value, _, _, den) := f.bounds
  if den ≤ value then ((Nat.toDigits 10 (value / den)).length : Int) - 1
  else leadingBelowOne value den (4 * den.log2 + 4) (-1)

/-- The two neighbours of the fraction on a decimal grid. -/
def neighbours (f : Fraction) (exponent : Int) : Nat :=
  let (value, _, _, den) := f.bounds
  value * Nat.pow 10 (-exponent).toNat /
    (den * Nat.pow 10 exponent.toNat)

/-- The best decimal on a grid: of the two neighbours those in the
    interval, of two the nearer, of a tie the even. -/
def onGrid? (f : Fraction) (exponent : Int) : Option Scaled :=
  let (value, _, _, den) := f.bounds
  let n := f.neighbours exponent
  let below : Scaled := ⟨n, exponent⟩
  let above : Scaled := ⟨n + 1, exponent⟩
  match f.accepts below && n != 0, f.accepts above with
  | true, false => some below
  | false, true => some above
  | false, false => none
  | true, true =>
      let middle : Scaled := ⟨10 * n + 5, exponent - 1⟩
      match compareScaled middle value den with
      | .gt => some below
      | .lt => some above
      | .eq => some (if n % 2 == 0 then below else above)

/-- Tries grids of more and more digits, starting at `exponent`. -/
def search (f : Fraction) : Nat → Int → Scaled
  | 0, exponent => ⟨f.neighbours exponent, exponent⟩
  | fuel + 1, exponent =>
      match f.onGrid? exponent with
      | some s => s
      | none => f.search fuel (exponent - 1)

/-- The shortest decimal of a positive fraction. -/
def shortest (f : Fraction) : Scaled :=
  f.search 17 f.leading

end Fraction

end LineShell.Decimal
