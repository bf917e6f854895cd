/-!
# Blank characters

The characters with the Unicode property `White_Space`, and the text left when they are cut from
both ends.

## Main definitions

* `Text.isBlank` — membership in the property
* `Text.trim` — a text without its leading and trailing blanks
* `Text.isBlankText` — whether nothing else occurs
-/

namespace ShardKeeper.Text

/-- The Unicode property `White_Space`. -/
def isBlank (c : Char) : Bool :=
  let n := c.toNat
  (0x09 ≤ n && n ≤ 0x0D) || n == 0x20 || n == 0x85 || n == 0xA0 || n == 0x1680
    || (0x2000 ≤ n && n ≤ 0x200A) || n == 0x2028 || n == 0x2029 || n == 0x202F || n == 0x205F
    || n == 0x3000

/-- The text without the blanks it begins and ends with. -/
def trim (text : List Char) : List Char :=
  ((text.dropWhile isBlank).reverse.dropWhile isBlank).reverse

/-- Whether the text is empty or all blank. -/
def isBlankText (text : List Char) : Bool := (trim text).isEmpty

end ShardKeeper.Text
