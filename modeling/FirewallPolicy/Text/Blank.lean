import FirewallPolicy.Text.Ranges

/-!
## Blanks

White space of all scripts, and the operations on texts that cut at it.
-/

namespace FirewallPolicy.Text

/-- White space: the ASCII separators and the blanks of Unicode 14. -/
def blanks : Ranges := [
    (0x9, 0xd), (0x1c, 0x20), (0x85, 0x85), (0xa0, 0xa0), (0x1680, 0x1680), (0x2000, 0x200a),
    (0x2028, 0x2029), (0x202f, 0x202f), (0x205f, 0x205f), (0x3000, 0x3000)]

/-- Is the character white space? -/
def isBlank (c : Char) : Bool :=
  blanks.contains c

/-- The characters without the blanks at the end. -/
def dropBlanksRight (cs : List Char) : List Char :=
  (cs.reverse.dropWhile isBlank).reverse

/-- The text without the blanks at its end. -/
def trimRight (s : String) : String :=
  String.ofList (dropBlanksRight s.toList)

/-- The text without the blanks at both ends. -/
def trim (s : String) : String :=
  String.ofList (dropBlanksRight (s.toList.dropWhile isBlank))

/-- Is the character a blank that may stand around a numeral?  The ASCII separators between
records may not. -/
def isMargin (c : Char) : Bool :=
  isBlank c && !(0x1c ≤ c.toNat && c.toNat ≤ 0x1f)

/-- The characters of a numeral without the blanks around it. -/
def withoutMargins (cs : List Char) : List Char :=
  ((cs.dropWhile isMargin).reverse.dropWhile isMargin).reverse

/-- The words of `cs`, a started word standing before them in reverse. -/
def wordsFrom (started : List Char) : List Char → List (List Char)
  | [] => if started.isEmpty then [] else [started.reverse]
  | c :: rest =>
    if isBlank c then
      if started.isEmpty then wordsFrom [] rest else started.reverse :: wordsFrom [] rest
    else wordsFrom (c :: started) rest

/-- The runs of characters between blanks. -/
def words (s : String) : List String :=
  (wordsFrom [] s.toList).map String.ofList

end FirewallPolicy.Text
