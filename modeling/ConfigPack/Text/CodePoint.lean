import ConfigPack.Text.Combining
import ConfigPack.Text.Letters
import ConfigPack.Text.NameParts
import ConfigPack.Text.Unprintable

/-!
# Classes of characters

Membership in the tables of code points, and the blanks that are trimmed from texts.
-/

namespace ConfigPack.Text

/-- Whether a code point lies in one of the runs. -/
def inRanges (ranges : List (Nat × Nat)) (c : Char) : Bool :=
  ranges.any fun (first, last) => first ≤ c.toNat && c.toNat ≤ last

/-- Whether a character has a printed form. -/
def isPrintable (c : Char) : Bool :=
  if c.toNat < 0x7f then 0x20 ≤ c.toNat else !inRanges unprintableRanges c

/-- Whether a character extends the one before it. -/
def isCombining (c : Char) : Bool := 0x300 ≤ c.toNat && inRanges combiningRanges c

/-- Whether a character may begin a name. -/
def isLetter (c : Char) : Bool :=
  if c.toNat < 0x80 then c.isAlpha else inRanges letterRanges c

/-- Whether a character may stand inside a name. -/
def isNamePart (c : Char) : Bool :=
  if c.toNat < 0x80 then c.isAlphanum || c == '_' else isLetter c || inRanges namePartRanges c

/-- Whether a character separates words. -/
def isSpaceSeparator (c : Char) : Bool :=
  let n := c.toNat
  n == 0x20 || n == 0xa0 || n == 0x1680 || (0x2000 ≤ n && n ≤ 0x200a) || n == 0x202f ||
    n == 0x205f || n == 0x3000

/-- Whether a character is white space. -/
def isWhite (c : Char) : Bool :=
  let n := c.toNat
  (9 ≤ n && n ≤ 13) || n == 0x85 || n == 0x2028 || n == 0x2029 || isSpaceSeparator c

/-- The text without white space at its ends. -/
def trim (s : String) : String :=
  String.ofList (((s.toList.dropWhile isWhite).reverse.dropWhile isWhite).reverse)

/-- An ASCII capital as its small letter, all else as it is. -/
def lowerAscii (s : String) : String := s.map Char.toLower

end ConfigPack.Text
