import Scriptlet.Library.Sequence
import Scriptlet.Library.Text

/-!
The operations of the standard library by name, with their arities and what they do.
-/

namespace Scriptlet

namespace Builtin

def name : Builtin → String
  | add => "+"
  | subtract => "-"
  | multiply => "*"
  | divide => "/"
  | quot => "quot"
  | rem => "rem"
  | mod => "mod"
  | inc => "inc"
  | dec => "dec"
  | abs => "abs"
  | min => "min"
  | max => "max"
  | equal => "="
  | notEqual => "not="
  | less => "<"
  | greater => ">"
  | atMost => "<="
  | atLeast => ">="
  | not => "not"
  | isNil => "nil?"
  | isZero => "zero?"
  | isEmpty => "empty?"
  | isNumber => "number?"
  | isString => "string?"
  | str => "str"
  | upperCase => "upper-case"
  | lowerCase => "lower-case"
  | list => "list"
  | count => "count"
  | first => "first"
  | rest => "rest"
  | nth => "nth"
  | conj => "conj"
  | concat => "concat"

def arity : Builtin → Arity
  | add | multiply | str | list | concat => .atLeast 0
  | subtract | divide | min | max | equal | notEqual | less | greater | atMost | atLeast | conj =>
    .atLeast 1
  | quot | rem | mod | nth => .exactly 2
  | inc | dec | abs | not | isNil | isZero | isEmpty | isNumber | isString | upperCase | lowerCase
  | count | first | rest => .exactly 1

def doc : Builtin → String
  | add => "Sum of the arguments; (+) is 0"
  | subtract => "Subtracts the rest from the first; negates a single argument"
  | multiply => "Product of the arguments; (*) is 1"
  | divide => "Divides the first by the rest; integer division for integers"
  | quot => "Integer quotient, truncated toward zero"
  | rem => "Integer remainder with the sign of the dividend"
  | mod => "Integer modulus with the sign of the divisor"
  | inc => "Adds one"
  | dec => "Subtracts one"
  | abs => "Absolute value"
  | min => "Smallest of the arguments"
  | max => "Largest of the arguments"
  | equal => "True if all arguments are equal; numbers compare by value"
  | notEqual => "True if some arguments differ"
  | less => "True if the arguments are strictly increasing"
  | greater => "True if the arguments are strictly decreasing"
  | atMost => "True if the arguments never decrease"
  | atLeast => "True if the arguments never increase"
  | not => "True if the argument is nil or false"
  | isNil => "True if the argument is nil"
  | isZero => "True if the number is zero"
  | isEmpty => "True for nil, the empty string and the empty list"
  | isNumber => "True for integers and floats"
  | isString => "True for strings"
  | str => "Concatenates its arguments as text; nil is the empty string"
  | upperCase => "Converts a string to upper case"
  | lowerCase => "Converts a string to lower case"
  | list => "A list of the arguments"
  | count => "Number of items in a list or characters in a string"
  | first => "First item of a list, or nil"
  | rest => "All items but the first"
  | nth => "Item at a zero-based index"
  | conj => "Appends items to the end of a list"
  | concat => "Joins lists end to end"

/-- The wrong number of arguments, which callers rule out beforehand. -/
def miscalled (op : Builtin) (args : List Value) : Fault :=
  .wrongCount op.name op.arity args.length

def unary (op : Builtin) (f : Value → Library.Outcome) : List Value → Library.Outcome
  | [v] => f v
  | args => .error (op.miscalled args)

def binary (op : Builtin) (f : Value → Value → Library.Outcome) : List Value → Library.Outcome
  | [a, b] => f a b
  | args => .error (op.miscalled args)

def test (op : Builtin) (p : Value → Bool) : List Value → Library.Outcome :=
  op.unary fun v => .ok (.bool (p v))

def run (op : Builtin) (args : List Value) : Library.Outcome :=
  match op with
  | add => Library.add args
  | subtract => Library.subtract args
  | multiply => Library.multiply args
  | divide => Library.divide args
  | quot => op.binary Library.quot args
  | rem => op.binary Library.rem args
  | mod => op.binary Library.mod args
  | inc => op.unary Library.inc args
  | dec => op.unary Library.dec args
  | abs => op.unary Library.abs args
  | min => Library.best .less "min" args
  | max => Library.best .greater "max" args
  | equal => .ok (.bool (Library.allAlike args))
  | notEqual => .ok (.bool (!Library.allAlike args))
  | less => Library.chain .less "<" args
  | greater => Library.chain .greater ">" args
  | atMost => Library.chain .atMost "<=" args
  | atLeast => Library.chain .atLeast ">=" args
  | not => op.test (fun v => !v.isTruthy) args
  | isNil => op.test Value.isNil args
  | isZero => op.unary Library.isZero args
  | isEmpty => op.unary Library.isEmpty args
  | isNumber => op.test Library.isNumber args
  | isString => op.test Library.isString args
  | str => Library.str args
  | upperCase => op.unary Library.upperCase args
  | lowerCase => op.unary Library.lowerCase args
  | list => .ok (.list args)
  | count => op.unary Library.count args
  | first => op.unary Library.first args
  | rest => op.unary Library.rest args
  | nth => op.binary Library.nth args
  | conj =>
    match args with
    | v :: added => Library.conj v added
    | [] => .error (op.miscalled args)
  | concat => Library.concat args

end Builtin

end Scriptlet
