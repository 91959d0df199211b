/-!
# Text — Lowercase

Lowercase as far as it reaches ASCII.  Besides `A`–`Z` only U+212A KELVIN SIGN has an ASCII letter
as its whole lowercase form, so a text is an ASCII word in lowercase exactly when `toLower` of it
is that word.
-/

namespace Readiness.Text

/-- The ASCII letter a character has as its lowercase form, else the character itself. -/
def lowerChar (c : Char) : Char := if c.toNat = 0x212A then 'k' else c.toLower

/-- Every character replaced by its ASCII lowercase form. -/
def toLower (s : String) : String := String.ofList (s.toList.map lowerChar)

end Readiness.Text
