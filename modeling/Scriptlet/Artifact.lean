import Scriptlet.Resolution.Basic
import Scriptlet.Value.Equality

/-!
Compiled scripts. An artifact never changes; it keeps its name for messages, not its source.
-/

namespace Scriptlet

/-- The serial number tells artifacts of one host apart. It plays no part in their equality. -/
structure Artifact where
  serial : Nat
  name : String
  body : Node
  free : List FreeName

namespace Artifact

/-- Names that the script reads from its binding, sorted. -/
def inputNames (a : Artifact) : List String := a.free.map (·.name)

/-- Same name, same tree with its spans, and same free names. -/
def beq (a b : Artifact) : Bool :=
  a.name == b.name && a.body == b.body && a.free == b.free

instance : BEq Artifact := ⟨beq⟩

/-- The very same artifact. -/
def same (a b : Artifact) : Bool := a.serial == b.serial

end Artifact

end Scriptlet
