import Scriptlet.Json.Quoted
import Scriptlet.Value.Printer

/-!
Values as JSON text, without spaces. A function is written as its printed form.
-/

namespace Scriptlet

namespace Value

mutual

def jsonChars : Value → List Char
  | .nil => "null".toList
  | .bool b => (if b then "true" else "false").toList
  | .int i => (toString i.toInt).toList
  | .float x => (Decimal.json x).toList
  | .str s => Json.quote s.toList
  | .list items => '[' :: (jsonItems items ++ [']'])
  | .function f => Json.quote f.display.toList

/-- The items with commas between them. -/
def jsonItems : List Value → List Char
  | [] => []
  | [v] => jsonChars v
  | v :: vs => jsonChars v ++ ',' :: jsonItems vs

end

def json (v : Value) : String := String.ofList v.jsonChars

end Value

end Scriptlet
