import LineShell.Text.Blank
import LineShell.Text.Lines
import LineShell.Text.WordChar
import Mathlib.Data.List.TakeWhile

/-! # Stripped texts — what is left between the blanks at both ends

    A text is blanks, what is left of it when it is stripped, and blanks
    again (`exists_strip`), and blanks at its ends do not matter to what is
    left (`strip_between`).  A text is left as it is just when it neither
    starts nor ends with a blank (`strip_eq_self_iff`).  Blanks are few:
    every line boundary is one, and no character of a name is. -/

namespace LineShell.Text

/-! ## Blanks -/

/-- The code points of the blanks. -/
def blankCodes : List Nat :=
  [0x9, 0xa, 0xb, 0xc, 0xd, 0x1c, 0x1d, 0x1e, 0x1f, 0x20, 0x85, 0xa0, 0x1680,
    0x2000, 0x2001, 0x2002, 0x2003, 0x2004, 0x2005, 0x2006, 0x2007, 0x2008,
    0x2009, 0x200a, 0x2028, 0x2029, 0x202f, 0x205f, 0x3000]

theorem mem_blankCodes {c : Char} (h : isBlank c = true) :
    c.toNat ∈ blankCodes := by
  simp only [isBlank, Bool.or_eq_true, Bool.and_eq_true, decide_eq_true_eq,
    beq_iff_eq] at h
  simp only [blankCodes, List.mem_cons, List.not_mem_nil, or_false]
  omega

theorem isBlank_of_isLineBoundary {c : Char}
    (h : isLineBoundary c = true) : isBlank c = true := by
  simp only [isLineBoundary, Bool.or_eq_true, Bool.and_eq_true,
    decide_eq_true_eq, beq_iff_eq] at h
  simp only [isBlank, Bool.or_eq_true, Bool.and_eq_true, decide_eq_true_eq,
    beq_iff_eq]
  omega

/-- No word character is blank. -/
theorem isBlank_of_isWordChar {c : Char} (h : isWordChar c = true) :
    isBlank c = false := by
  have hnone : ∀ code ∈ blankCodes, isWordChar (Char.ofNat code) = false := by
    decide +kernel
  refine Bool.eq_false_iff.mpr fun hblank => ?_
  have hword := hnone c.toNat (mem_blankCodes hblank)
  rw [Char.ofNat_toNat, h] at hword
  cases hword

/-! ## Stripping -/

variable {cs before body after : List Char}

theorem dropWhile_blank_append (h : ∀ c ∈ before, isBlank c = true)
    (cs : List Char) :
    (before ++ cs).dropWhile isBlank = cs.dropWhile isBlank :=
  List.dropWhile_append_of_pos h

theorem trimEnd_append_blank (h : ∀ c ∈ after, isBlank c = true)
    (cs : List Char) :
    trimEnd isBlank (cs ++ after) = trimEnd isBlank cs := by
  rw [trimEnd, List.reverse_append, List.dropWhile_append_of_pos
    fun c hc => h c (List.mem_reverse.mp hc), trimEnd]

/-- Blanks at the ends of a text do not matter to what is left of it. -/
theorem strip_between (hbefore : ∀ c ∈ before, isBlank c = true)
    (hafter : ∀ c ∈ after, isBlank c = true) (body : List Char) :
    strip (before ++ body ++ after) = strip body := by
  rw [strip, trim, List.append_assoc, trimStart,
    dropWhile_blank_append hbefore, List.dropWhile_append, strip, trim,
    trimStart]
  split
  · rename_i hempty
    have hdrop : after.dropWhile isBlank = [] :=
      List.dropWhile_eq_nil_iff.mpr hafter
    rw [hdrop, List.isEmpty_iff.mp hempty]
  · exact trimEnd_append_blank hafter _

/-- A text is what is left of it between blanks. -/
theorem exists_strip (cs : List Char) :
    ∃ before after, cs = before ++ strip cs ++ after ∧
      (∀ c ∈ before, isBlank c = true) ∧ ∀ c ∈ after, isBlank c = true := by
  have htake : ∀ l : List Char, ∀ c ∈ l.takeWhile isBlank,
      isBlank c = true := fun l c hc => List.mem_takeWhile_imp hc
  refine ⟨cs.takeWhile isBlank,
    ((cs.dropWhile isBlank).reverse.takeWhile isBlank).reverse, ?_,
    htake cs, fun c hc => htake _ c (List.mem_reverse.mp hc)⟩
  rw [strip, trim, trimEnd, trimStart, List.append_assoc,
    ← List.reverse_append, List.takeWhile_append_dropWhile,
    List.reverse_reverse, List.takeWhile_append_dropWhile]

/-- A text that neither starts nor ends with a blank. -/
structure Trimmed (cs : List Char) : Prop where
  head : ∀ c ∈ cs.head?, isBlank c = false
  last : ∀ c ∈ cs.getLast?, isBlank c = false

theorem strip_of_trimmed (h : Trimmed cs) : strip cs = cs := by
  have hfront : ∀ l : List Char, (∀ c ∈ l.head?, isBlank c = false) →
      l.dropWhile isBlank = l := by
    intro l hl
    cases l with
    | nil => rfl
    | cons c l => rw [List.dropWhile_cons_of_neg (by simp [hl c rfl])]
  have hback := hfront cs.reverse (by rw [List.head?_reverse]; exact h.last)
  rw [strip, trim, trimStart, hfront cs h.head, trimEnd, hback,
    List.reverse_reverse]

theorem head?_dropWhile_blank {c : Char}
    (h : (cs.dropWhile isBlank).head? = some c) : isBlank c = false := by
  have hnot := List.head?_dropWhile_not isBlank cs
  rw [h] at hnot
  exact hnot

/-- What is left of a text has no blanks at its ends. -/
theorem trimmed_strip (cs : List Char) : Trimmed (strip cs) := by
  constructor
  · intro c hc
    -- what is cut off at the end leaves the first character
    have hfront : strip cs <+: cs.dropWhile isBlank := by
      rw [← List.reverse_suffix, strip, trim, trimEnd, List.reverse_reverse]
      exact List.dropWhile_suffix _
    obtain ⟨rest, hrest⟩ := hfront
    have hhead : (cs.dropWhile isBlank).head? = some c := by
      rw [← hrest, List.head?_append, hc]
      rfl
    exact head?_dropWhile_blank hhead
  · intro c hc
    rw [strip, trim, trimEnd, List.getLast?_reverse] at hc
    exact head?_dropWhile_blank hc

/-- A text is left as it is just when no blank stands at its ends. -/
theorem strip_eq_self_iff : strip cs = cs ↔ Trimmed cs :=
  ⟨fun h => h ▸ trimmed_strip cs, strip_of_trimmed⟩

end LineShell.Text
