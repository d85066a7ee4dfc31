/-!
# Blank characters

White space in the sense of Unicode's `White_Space` property, and the text between the white space
at both ends.

## Main definitions

* `Text.isBlank`: the white space characters.
* `Text.trim`: a text without white space at its ends.
-/

namespace QueueScaler.Text

/-- The white space characters beyond ASCII. -/
def wideBlanks : List Char :=
  ['\u0085', '\u00a0', '\u1680', '\u2000', '\u2001', '\u2002', '\u2003', '\u2004', '\u2005',
    '\u2006', '\u2007', '\u2008', '\u2009', '\u200a', '\u2028', '\u2029', '\u202f', '\u205f',
    '\u3000']

/-- Whether a character is white space: the ASCII blanks from tab to carriage return, the space,
or one of the wider blanks. -/
def isBlank (c : Char) : Bool :=
  c = ' ' || (0x09 ≤ c.toNat ∧ c.toNat ≤ 0x0d) || wideBlanks.contains c

/-- Drops the white space at both ends of a list of characters. -/
def trimChars (cs : List Char) : List Char :=
  ((cs.dropWhile isBlank).reverse.dropWhile isBlank).reverse

/-- A text without white space at its ends. -/
def trim (s : String) : String := String.ofList (trimChars s.toList)

/-- Whether a text is nothing but white space. -/
def isAllBlank (s : String) : Bool := s.toList.all isBlank

end QueueScaler.Text
