import Scriptlet.Decimal.Printer
import Scriptlet.Text.Quoted
import Scriptlet.Value.Basic

/-!
The printed form of values.
-/

namespace Scriptlet

def Function.display : Function → String
  | .native f => s!"#<fn {f.name}>"
  | .closure _ l _ => s!"#<fn/{l.params.length}>"

namespace Value

mutual

def display : Value → String
  | .nil => "nil"
  | .bool b => if b then "true" else "false"
  | .int i => toString i.toInt
  | .float x => Decimal.display x
  | .str s => String.ofList (Text.quote s.toList)
  | .list items => "(" ++ " ".intercalate (displayAll items) ++ ")"
  | .function f => f.display

def displayAll : List Value → List String
  | [] => []
  | v :: vs => display v :: displayAll vs

end

/-- Text without quotes, nothing for `nil`, and the printed form of any other value. -/
def plain : Value → String
  | .str s => s
  | .nil => ""
  | v => v.display

end Value

end Scriptlet
