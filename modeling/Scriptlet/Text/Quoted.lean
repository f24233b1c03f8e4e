import Scriptlet.Text.Extending
import Scriptlet.Text.Printable

/-!
Text between double quotes. Quotes, backslashes and characters without a visible form of their own
are written as escapes.
-/

namespace Scriptlet.Text

/-- The escape by code point, in lower-case hexadecimal digits. -/
def codePointEscape (c : Char) : List Char :=
  ['\\', 'u', '{'] ++ Nat.toDigits 16 c.toNat ++ ['}']

def escapeChar (c : Char) : List Char :=
  match c with
  | '"' => ['\\', '"']
  | '\\' => ['\\', '\\']
  | '\n' => ['\\', 'n']
  | '\r' => ['\\', 'r']
  | '\t' => ['\\', 't']
  | '\x00' => ['\\', '0']
  | c => if isExtending c || !isPrintable c then codePointEscape c else [c]

def quote (cs : List Char) : List Char := '"' :: (cs.flatMap escapeChar ++ ['"'])

example : quote "a\"é\u0301\u0000".toList = "\"a\\\"é\\u\x7b301\x7d\\0\"".toList := by decide +kernel

end Scriptlet.Text
