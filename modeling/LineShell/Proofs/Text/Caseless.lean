import LineShell.Text.Caseless
import LineShell.Proofs.Text.Blank
import Mathlib.Data.List.Forall2

/-! # Key words — which texts they are

    A key word matches a text just when the text is blanks, the letters of
    the word, each in either case, and blanks again (`isKeyword_iff`).  No
    letter of a key word matches a blank, so that what stands between the
    blanks is all of the word. -/

namespace LineShell.Text

/-- What a small letter of a key word matches: itself, its capital, and for
    `i` the dotless small and the dotted capital letter. -/
inductive SameLetter (letter : Char) : Char → Prop where
  | same : SameLetter letter letter
  | capital {c : Char} (hleast : 'A' ≤ c) (hmost : c ≤ 'Z')
      (h : c.toNat + 32 = letter.toNat) : SameLetter letter c
  | dotless (h : letter = 'i') : SameLetter letter 'ı'
  | dotted (h : letter = 'i') : SameLetter letter 'İ'

/-- A character that can stand in a key word: no blank and no capital. -/
def isKeyLetter (letter : Char) : Bool :=
  !isBlank letter && !('A' ≤ letter && letter ≤ 'Z')

/-- The text is one of the words, each letter in either case, with blanks
    around it. -/
def IsWordOf (words : List String) (text : String) : Prop :=
  ∃ word ∈ words, ∃ before body after : List Char,
    text.toList = before ++ body ++ after ∧
    (∀ c ∈ before, isBlank c = true) ∧ (∀ c ∈ after, isBlank c = true) ∧
    List.Forall₂ SameLetter word.toList body

variable {letter c : Char} {word cs : List Char}

/-! ## Letters -/

theorem toNat_of_capital (hleast : 'A' ≤ c) (hmost : c ≤ 'Z') :
    65 ≤ c.toNat ∧ c.toNat ≤ 90 :=
  ⟨UInt32.le_iff_toNat_le.mp hleast, UInt32.le_iff_toNat_le.mp hmost⟩

/-- The small form of a capital is the letter 32 places further on. -/
theorem smallLetter_capital (hleast : 'A' ≤ c) (hmost : c ≤ 'Z') :
    (smallLetter c).toNat = c.toNat + 32 := by
  obtain ⟨_, hn⟩ := toNat_of_capital hleast hmost
  have hsmall : ∀ n < 91, (Char.ofNat (n + 32)).toNat = n + 32 := by decide
  rw [smallLetter, if_pos (by simp [hleast, hmost])]
  exact hsmall c.toNat (by omega)

theorem matchesLetter_iff (h : isKeyLetter letter = true) :
    matchesLetter letter c = true ↔ SameLetter letter c := by
  simp only [isKeyLetter, Bool.and_eq_true, Bool.not_eq_true'] at h
  simp only [matchesLetter, Bool.or_eq_true, Bool.and_eq_true, beq_iff_eq]
  constructor
  · rintro (hsmall | ⟨hi, hdotless | hdotted⟩)
    · by_cases hc : 'A' ≤ c ∧ c ≤ 'Z'
      · refine .capital hc.1 hc.2 ?_
        rw [← hsmall, smallLetter_capital hc.1 hc.2]
      · rw [smallLetter, if_neg (by simpa using hc)] at hsmall
        exact hsmall ▸ .same
    · rw [Char.toNat_inj.mp (show c.toNat = 'ı'.toNat from hdotless)]
      exact .dotless hi
    · rw [Char.toNat_inj.mp (show c.toNat = 'İ'.toNat from hdotted)]
      exact .dotted hi
  · rintro (_ | ⟨hleast, hmost, hn⟩ | hi | hi)
    · left
      rw [smallLetter, h.2, if_neg Bool.false_ne_true]
    · left
      refine Char.toNat_inj.mp ?_
      rw [smallLetter_capital hleast hmost, hn]
    · exact Or.inr ⟨hi, Or.inl rfl⟩
    · exact Or.inr ⟨hi, Or.inr rfl⟩

/-- No letter of a key word matches a blank. -/
theorem isBlank_of_sameLetter (hletter : isKeyLetter letter = true)
    (h : SameLetter letter c) : isBlank c = false := by
  cases h with
  | same =>
      rw [isKeyLetter, Bool.and_eq_true, Bool.not_eq_true'] at hletter
      exact hletter.1
  | capital hleast hmost _ =>
      obtain ⟨_, _⟩ := toNat_of_capital hleast hmost
      refine Bool.eq_false_iff.mpr fun hblank => ?_
      simp only [isBlank, Bool.or_eq_true, Bool.and_eq_true,
        decide_eq_true_eq, beq_iff_eq] at hblank
      omega
  | dotless => decide
  | dotted => decide

/-! ## Words -/

theorem matchesWord_iff (hword : ∀ letter ∈ word, isKeyLetter letter = true) :
    matchesWord word cs = true ↔ List.Forall₂ SameLetter word cs := by
  induction word generalizing cs with
  | nil =>
      rw [List.forall₂_nil_left_iff]
      cases cs with
      | nil => simp [matchesWord]
      | cons c cs => simp [matchesWord]
  | cons letter word ih =>
      have hrest := fun l hl => hword l (List.mem_cons_of_mem letter hl)
      cases cs with
      | nil => simp [matchesWord]
      | cons c cs =>
          rw [matchesWord, Bool.and_eq_true, List.forall₂_cons, ih hrest,
            matchesLetter_iff (hword letter List.mem_cons_self)]

/-- What a key word matches has no blanks. -/
theorem isBlank_of_forall₂
    (hword : ∀ letter ∈ word, isKeyLetter letter = true)
    (h : List.Forall₂ SameLetter word cs) :
    ∀ c ∈ cs, isBlank c = false := by
  induction h with
  | nil => exact List.forall_mem_nil _
  | @cons letter c word cs hletter _ ih =>
      refine List.forall_mem_cons.mpr ⟨?_, ih fun l hl =>
        hword l (List.mem_cons_of_mem letter hl)⟩
      exact isBlank_of_sameLetter (hword letter List.mem_cons_self) hletter

theorem trimmed_of_no_blank (h : ∀ c ∈ cs, isBlank c = false) :
    Trimmed cs :=
  ⟨fun c hc => h c (List.mem_of_mem_head? hc),
    fun c hc => h c (List.mem_of_getLast? hc)⟩

/-- A key word matches the texts that are the word in any case, with blanks
    around it. -/
theorem isKeyword_iff {words : List String} {text : String}
    (hkeys : (words.all fun word => word.toList.all isKeyLetter) = true) :
    isKeyword words text = true ↔ IsWordOf words text := by
  have hwords : ∀ word ∈ words, ∀ letter ∈ word.toList,
      isKeyLetter letter = true :=
    fun word hword => List.all_eq_true.mp (List.all_eq_true.mp hkeys word hword)
  rw [isKeyword, List.any_eq_true]
  constructor
  · rintro ⟨word, hword, hmatches⟩
    obtain ⟨before, after, htext, hbefore, hafter⟩ :=
      exists_strip text.toList
    exact ⟨word, hword, before, strip text.toList, after, htext, hbefore,
      hafter, (matchesWord_iff (hwords word hword)).mp hmatches⟩
  · rintro ⟨word, hword, before, body, after, htext, hbefore, hafter, hsame⟩
    have hstrip : strip text.toList = body := by
      rw [htext, strip_between hbefore hafter]
      exact strip_of_trimmed
        (trimmed_of_no_blank (isBlank_of_forall₂ (hwords word hword) hsame))
    refine ⟨word, hword, ?_⟩
    rw [hstrip]
    exact (matchesWord_iff (hwords word hword)).mpr hsame

end LineShell.Text
