/-! Blank characters, and text without them at its ends. -/

namespace Interpose.Text

def isBlank (c : Char) : Bool :=
  let n := c.toNat
  decide (0x09 ≤ n ∧ n ≤ 0x0D) || decide (0x2000 ≤ n ∧ n ≤ 0x200A) ||
    [0x20, 0x85, 0xA0, 0x1680, 0x2028, 0x2029, 0x202F, 0x205F, 0x3000].contains n

def strip (text : String) : String :=
  String.ofList (((text.toList.dropWhile isBlank).reverse.dropWhile isBlank).reverse)

/-- The text with its ASCII capitals as small letters; all other characters stay. -/
def lowerASCII (text : String) : String := text.map Char.toLower

end Interpose.Text
