import Scriptlet.Value.Basic

/-!
Two equalities. `==` on values never mixes integers and floats; `Value.sameNumber` is the one of
the language, where numbers compare by value. Floats compare as numbers in both, so that a NaN
differs from itself, and functions by identity.
-/

namespace Scriptlet

mutual

def Value.beq : Value → Value → Bool
  | .nil, .nil => true
  | .bool a, .bool b => a == b
  | .int a, .int b => a == b
  | .float a, .float b => a == b
  | .str a, .str b => a == b
  | .list a, .list b => Value.beqAll a b
  | .function a, .function b => a.same b
  | _, _ => false

def Value.beqAll : List Value → List Value → Bool
  | [], [] => true
  | a :: as, b :: bs => Value.beq a b && Value.beqAll as bs
  | _, _ => false

end

instance : BEq Value := ⟨Value.beq⟩

mutual

/-- Equality of the language: an integer equals a float of the same value after rounding. -/
def Value.alike : Value → Value → Bool
  | .int a, .float b => Float.ofInt a.toInt == b
  | .float a, .int b => Float.ofInt b.toInt == a
  | .list a, .list b => Value.alikeAll a b
  | .nil, .nil => true
  | .bool a, .bool b => a == b
  | .int a, .int b => a == b
  | .float a, .float b => a == b
  | .str a, .str b => a == b
  | .function a, .function b => a.same b
  | _, _ => false

def Value.alikeAll : List Value → List Value → Bool
  | [], [] => true
  | a :: as, b :: bs => Value.alike a b && Value.alikeAll as bs
  | _, _ => false

end

mutual

def Lambda.beq : Lambda → Lambda → Bool
  | .mk ps cs body s, .mk ps' cs' body' s' =>
    ps == ps' && cs == cs' && Node.beqAll body body' && s == s'

def Node.beq : Node → Node → Bool
  | .constant v s, .constant v' s' => v == v' && s == s'
  | .localName n s, .localName n' s' => n == n' && s == s'
  | .freeName n s, .freeName n' s' => n == n' && s == s'
  | .list items s, .list items' s' => Node.beqAll items items' && s == s'
  | .branch c y n s, .branch c' y' n' s' =>
    Node.beq c c' && Node.beq y y' && Node.beqOption n n' && s == s'
  | .block body s, .block body' s' => Node.beqAll body body' && s == s'
  | .bind bs body s, .bind bs' body' s' =>
    Node.beqBindings bs bs' && Node.beqAll body body' && s == s'
  | .lambda l, .lambda l' => Lambda.beq l l'
  | .allOf items s, .allOf items' s' => Node.beqAll items items' && s == s'
  | .anyOf items s, .anyOf items' s' => Node.beqAll items items' && s == s'
  | .nativeCall f args s, .nativeCall f' args' s' =>
    f.id == f'.id && Node.beqAll args args' && s == s'
  | .call c args s, .call c' args' s' => Node.beq c c' && Node.beqAll args args' && s == s'
  | _, _ => false

def Node.beqOption : Option Node → Option Node → Bool
  | none, none => true
  | some a, some b => Node.beq a b
  | _, _ => false

def Node.beqAll : List Node → List Node → Bool
  | [], [] => true
  | a :: as, b :: bs => Node.beq a b && Node.beqAll as bs
  | _, _ => false

def Node.beqBindings : List (String × Node) → List (String × Node) → Bool
  | [], [] => true
  | (n, a) :: as, (n', b) :: bs => n == n' && Node.beq a b && Node.beqBindings as bs
  | _, _ => false

end

instance : BEq Lambda := ⟨Lambda.beq⟩
instance : BEq Node := ⟨Node.beq⟩

end Scriptlet
