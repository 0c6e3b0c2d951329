import ReportSql.Text.CharSet

/-!
Blanks and the trimming of text. A blank is a character with the property White_Space.
-/

namespace ReportSql.Text

/-- The characters with the property White_Space. -/
def blanks : CharSet where
  ranges := [
    (0x9, 0xD), (0x20, 0x20), (0x85, 0x85), (0xA0, 0xA0), (0x1680, 0x1680), (0x2000, 0x200A),
    (0x2028, 0x2029), (0x202F, 0x202F), (0x205F, 0x205F), (0x3000, 0x3000)]

def isBlank (c : Char) : Bool := blanks.contains c

def trimLeftChars (s : List Char) : List Char := s.dropWhile isBlank

/-- Text without the blanks at its two ends. -/
def trimChars (s : List Char) : List Char :=
  (trimLeftChars (trimLeftChars s).reverse).reverse

def trim (s : String) : String := String.ofList (trimChars s.toList)

end ReportSql.Text
