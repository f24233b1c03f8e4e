import Scriptlet.Text.Ranges

/-!
White space, by the Unicode property of that name.
-/

namespace Scriptlet.Text

/-- All code points with the property White_Space. -/
def blankRanges : List (Nat × Nat) := [
  (0x9, 0xD), (0x20, 0x20), (0x85, 0x85), (0xA0, 0xA0), (0x1680, 0x1680), (0x2000, 0x200A),
  (0x2028, 0x2029), (0x202F, 0x202F), (0x205F, 0x205F), (0x3000, 0x3000)]

def isBlank (c : Char) : Bool := inRanges blankRanges c

/-- The text without the white space at its end. -/
def trimEnd (cs : List Char) : List Char := (cs.reverse.dropWhile isBlank).reverse

example : "\u0085\u00a0\u2003\u3000 \t".toList.all isBlank = true := by decide +kernel
example : ",\u200b".toList.any isBlank = false := by decide +kernel

end Scriptlet.Text
