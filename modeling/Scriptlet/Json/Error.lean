/-!
Why a text cannot be read as a JSON value of the language.
-/

namespace Scriptlet.Json

inductive ReadError where
  /-- The text is not JSON. -/
  | malformed
  /-- The text is JSON up to an object, which no value of the language is. -/
  | object
  /-- An integer beyond the range of the language that is still kept as an integer. -/
  | integerTooLarge (n : Nat)
  deriving DecidableEq, Repr

/-- What is said of a value that the language has no place for. -/
def ReadError.refusal? : ReadError → Option String
  | malformed => none
  | object => some "invalid type: map, expected nil, a boolean, a number, a string or a sequence"
  | integerTooLarge n =>
    some s!"invalid value: integer `{n}`, expected a 64-bit signed integer"

end Scriptlet.Json
