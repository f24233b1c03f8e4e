import Scriptlet.Json.Error

/-!
Text between quotes in JSON: how it is written, and what is accepted when it is read.
-/

namespace Scriptlet.Json

/-- Two hexadecimal digits. -/
def hexByte (n : Nat) : List Char := (Nat.toDigits 16 (256 + n)).drop 1

def escapeChar (c : Char) : List Char :=
  match c with
  | '"' => ['\\', '"']
  | '\\' => ['\\', '\\']
  | '\x08' => ['\\', 'b']
  | '\x0c' => ['\\', 'f']
  | '\n' => ['\\', 'n']
  | '\r' => ['\\', 'r']
  | '\t' => ['\\', 't']
  | c => if c.toNat < 32 then ['\\', 'u', '0', '0'] ++ hexByte c.toNat else [c]

/-- Only quotes, backslashes and control characters are escaped. -/
def quote (cs : List Char) : List Char := '"' :: (cs.flatMap escapeChar ++ ['"'])

def hexValue? (c : Char) : Option Nat :=
  if '0' ≤ c ∧ c ≤ '9' then some (c.toNat - 48)
  else if 'a' ≤ c ∧ c ≤ 'f' then some (c.toNat - 87)
  else if 'A' ≤ c ∧ c ≤ 'F' then some (c.toNat - 55)
  else none

/-- The number that four hexadecimal digits denote. -/
def hexUnit? (a b c d : Char) : Option Nat := do
  let a ← hexValue? a
  let b ← hexValue? b
  let c ← hexValue? c
  let d ← hexValue? d
  return ((a * 16 + b) * 16 + c) * 16 + d

def isLeading (unit : Nat) : Bool := 0xD800 ≤ unit && unit < 0xDC00

def isTrailing (unit : Nat) : Bool := 0xDC00 ≤ unit && unit < 0xE000

/-- The character that two halves of a pair denote. -/
def joinPair (leading trailing : Nat) : Char :=
  Char.ofNat (0x10000 + (leading - 0xD800) * 0x400 + (trailing - 0xDC00))

/-- The character after a backslash, for the escapes that are one character long. -/
def shortEscape? : Char → Option Char
  | '"' => some '"'
  | '\\' => some '\\'
  | '/' => some '/'
  | 'b' => some '\x08'
  | 'f' => some '\x0c'
  | 'n' => some '\n'
  | 'r' => some '\r'
  | 't' => some '\t'
  | _ => none

/-- Reads up to the closing quote. The result is the text and what follows the quote. -/
def unquote : List Char → Except ReadError (List Char × List Char)
  | [] => .error .malformed
  | '"' :: cs => .ok ([], cs)
  | '\\' :: 'u' :: a :: b :: c :: d :: cs =>
    match hexUnit? a b c d with
    | none => .error .malformed
    | some unit =>
      if isLeading unit then
        match cs with
        | '\\' :: 'u' :: e :: f :: g :: h :: cs =>
          match hexUnit? e f g h with
          | none => .error .malformed
          | some second =>
            if isTrailing second then
              (unquote cs).map fun (s, rest) => (joinPair unit second :: s, rest)
            else .error .malformed
        | _ => .error .malformed
      else if isTrailing unit then .error .malformed
      else (unquote cs).map fun (s, rest) => (Char.ofNat unit :: s, rest)
  | '\\' :: c :: cs =>
    match shortEscape? c with
    | none => .error .malformed
    | some c => (unquote cs).map fun (s, rest) => (c :: s, rest)
  | c :: cs =>
    if c = '\\' ∨ c.toNat < 32 then .error .malformed
    else (unquote cs).map fun (s, rest) => (c :: s, rest)

end Scriptlet.Json
