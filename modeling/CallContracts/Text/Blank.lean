/-!
Blank characters and trimming.

A character is blank when Unicode calls it white space or one of the four information separators
`U+001C` to `U+001F`. Main definitions: `isBlank`, and `trim` on lists of characters and on
texts. Main statement: `head_trimLeft`, trimming on the left leaves no blank in front.
-/

namespace CallContracts.Text

/-! ### The class -/

/-- White space of any script, with the four information separators. -/
def isBlank (c : Char) : Bool :=
  let n := c.toNat
  (9 ≤ n && n ≤ 13) || (28 ≤ n && n ≤ 32) || n == 0x85 || n == 0xA0 || n == 0x1680 ||
    (0x2000 ≤ n && n ≤ 0x200A) || n == 0x2028 || n == 0x2029 || n == 0x202F || n == 0x205F ||
    n == 0x3000

/-- A text is blank when all its characters are; the empty text is blank. -/
def isBlankText (s : String) : Bool := s.toList.all isBlank

/-! ### Trimming -/

/-- Drops the blanks in front. -/
def trimLeft (cs : List Char) : List Char := cs.dropWhile isBlank

/-- Drops the blanks at the end. -/
def trimRight (cs : List Char) : List Char := (cs.reverse.dropWhile isBlank).reverse

/-- Drops the blanks at both ends. -/
def trim (cs : List Char) : List Char := trimRight (trimLeft cs)

/-- Drops the blanks at both ends of a text. -/
def trimText (s : String) : String := String.ofList (trim s.toList)

/-- Trimming on the left leaves no blank in front. -/
theorem head_trimLeft {cs : List Char} {c : Char} (h : (trimLeft cs).head? = some c) :
    isBlank c = false := by
  induction cs with
  | nil => simp [trimLeft] at h
  | cons d ds ih =>
    by_cases hd : isBlank d
    · exact ih (by simpa [trimLeft, List.dropWhile_cons, hd] using h)
    · have : d = c := by simpa [trimLeft, List.dropWhile_cons, hd] using h
      simpa [← this] using hd

end CallContracts.Text
