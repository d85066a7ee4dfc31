import QueueScaler.Text.Scanner
/-!
# Lines, blanks and comments of TOML

## Main definitions

* `Toml.isPlain`: the characters allowed in comments and, quotes aside, in strings.
* `Toml.newline?`, `Toml.lineEnd?`: the ends of a line.
* `Toml.skipBlanks`, `Toml.skipGaps`: what may stand between two tokens, within a line and across
  lines.
-/

namespace QueueScaler.Toml

/-- Whether a character may stand in a comment: a tab, or anything but a control of ASCII. -/
def isPlain (c : Char) : Bool := c = '\t' || (0x20 ≤ c.toNat ∧ c.toNat ≠ 0x7f)

/-- Whether a character is a blank within a line. -/
def isSpace (c : Char) : Bool := c = ' ' || c = '\t'

/-- Drops the blanks at the front. -/
def skipBlanks (cs : List Char) : List Char := cs.dropWhile isSpace

/-- The rest after one character. -/
def after? (c : Char) : List Char → Option (List Char)
  | d :: rest => if d = c then some rest else none
  | [] => none

/-- The rest after a line break: a line feed, alone or after a carriage return. -/
def newline? : List Char → Option (List Char)
  | '\n' :: rest => some rest
  | '\r' :: '\n' :: rest => some rest
  | _ => none

/-- Drops a comment at the front, up to the end of its line. -/
def skipComment : List Char → List Char
  | '#' :: rest => rest.dropWhile isPlain
  | cs => cs

/-- The next line, when nothing but blanks and a comment are left on this one. -/
def lineEnd? (cs : List Char) : Option (List Char) :=
  match skipComment (skipBlanks cs) with
  | [] => some []
  | rest => newline? rest

/-- Drops blanks, line breaks and comments; `inComment` tells whether the text starts inside a
comment. -/
def skipGaps (inComment : Bool) : List Char → List Char
  | [] => []
  | c :: rest =>
    if c = '\n' then skipGaps false rest
    else if c = '\r' then
      match rest with
      | '\n' :: rest => skipGaps false rest
      | _ => c :: rest
    else if inComment then if isPlain c then skipGaps true rest else c :: rest
    else if isSpace c then skipGaps false rest
    else if c = '#' then skipGaps true rest
    else c :: rest

end QueueScaler.Toml
