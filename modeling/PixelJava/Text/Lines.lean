/-
Blank characters, trimming, and the lines of a text. A line ends at a line feed, and one carriage
return right before the feed belongs to the ending; what follows the last feed is a line only if
it is not empty.
-/

namespace PixelJava.Text

/-- The characters with the Unicode property White_Space. -/
def isBlank (c : Char) : Bool :=
  let n := c.toNat
  (0x09 ≤ n && n ≤ 0x0D) || n == 0x20 || n == 0x85 || n == 0xA0 || n == 0x1680 ||
    (0x2000 ≤ n && n ≤ 0x200A) || n == 0x2028 || n == 0x2029 || n == 0x202F || n == 0x205F ||
    n == 0x3000

/-- Drops the blanks at both ends. -/
def trim (cs : List Char) : List Char :=
  ((cs.dropWhile isBlank).reverse.dropWhile isBlank).reverse

/-- Drops the carriage return that a reversed line may start with. -/
def dropReturn : List Char → List Char
  | '\r' :: rest => rest
  | rest => rest

/-- The lines of `cs`, where `seen` holds the current line so far, last character first. -/
def linesFrom (seen : List Char) : List Char → List (List Char)
  | [] => if seen.isEmpty then [] else [seen.reverse]
  | c :: rest =>
    if c = '\n' then (dropReturn seen).reverse :: linesFrom [] rest else linesFrom (c :: seen) rest

/-- The lines of a text, without their endings. -/
def lines (cs : List Char) : List (List Char) :=
  linesFrom [] cs

end PixelJava.Text
