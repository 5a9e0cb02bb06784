import LineShell.Text.Blank

/-! # Caseless words — key words in any letter case

    A key word matches in any case of its ASCII letters; the two letters
    that other alphabets pair with `i`, dotless small and dotted capital,
    match `i` as well. -/

namespace LineShell.Text

/-- The small form of an ASCII letter; other characters as they are. -/
def smallLetter (c : Char) : Char :=
  if 'A' ≤ c && c ≤ 'Z' then Char.ofNat (c.toNat + 32) else c

/-- Does a character match a small ASCII letter in any case? -/
def matchesLetter (letter c : Char) : Bool :=
  smallLetter c == letter
    || (letter == 'i' && (c.toNat == 0x131 || c.toNat == 0x130))

/-- Does a text match a word of small letters in any case? -/
def matchesWord : List Char → List Char → Bool
  | [], [] => true
  | letter :: word, c :: cs => matchesLetter letter c && matchesWord word cs
  | _, _ => false

/-- Is the text one of the words, in any case, with blanks around it? -/
def isKeyword (words : List String) (text : String) : Bool :=
  words.any fun word => matchesWord word.toList (strip text.toList)

end LineShell.Text
