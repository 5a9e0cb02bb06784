/-! # Code ranges — character classes as sorted tables

    A class of characters that no short rule describes is a list of
    code-point ranges, ends included.  Membership is a linear scan: the
    classes are asked about one character at a time, and every caller
    answers for ASCII before it comes here. -/

namespace LineShell.Text

/-- Ranges of code points, ends included, in increasing order. -/
abbrev CodeRanges := List (Nat × Nat)

/-- Does one of the ranges hold the code point? -/
def CodeRanges.holds (ranges : CodeRanges) (code : Nat) : Bool :=
  ranges.any fun range => range.1 ≤ code && code ≤ range.2

theorem CodeRanges.holds_iff {ranges : CodeRanges} {code : Nat} :
    ranges.holds code = true ↔
      ∃ range ∈ ranges, range.1 ≤ code ∧ code ≤ range.2 := by
  simp [CodeRanges.holds]

end LineShell.Text
