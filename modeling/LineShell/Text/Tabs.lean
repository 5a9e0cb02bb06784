/-! # Tabs — filling up to the next column

    Columns are counted from the last line end.  A tab becomes as many
    spaces as lead to the next multiple of the tab width, at least one. -/

namespace LineShell.Text

/-- The width of a tab. -/
def tabWidth : Nat := 8

/-- Fills tabs, from a column on. -/
def fillTabsFrom (column : Nat) : List Char → List Char
  | [] => []
  | c :: rest =>
      if c == '\t' then
        let width := tabWidth - column % tabWidth
        List.replicate width ' ' ++ fillTabsFrom (column + width) rest
      else if c == '\n' || c == '\r' then c :: fillTabsFrom 0 rest
      else c :: fillTabsFrom (column + 1) rest

/-- Fills the tabs of a text. -/
def fillTabs (cs : List Char) : List Char :=
  fillTabsFrom 0 cs

/-- A filled text has no tabs. -/
theorem tab_notMem_fillTabsFrom (column : Nat) (cs : List Char) :
    '\t' ∉ fillTabsFrom column cs := by
  induction cs generalizing column with
  | nil => simp [fillTabsFrom]
  | cons c rest ih =>
      unfold fillTabsFrom
      split
      · simp [ih]
      · rename_i h
        have : ¬ '\t' = c := by
          intro e
          exact h (by simp [← e])
        split <;> simp [this, ih]

end LineShell.Text
