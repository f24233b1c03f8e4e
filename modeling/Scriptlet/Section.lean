/-!
A tree of titled sections. Items and child sections keep the order in which they were added.
-/

namespace Scriptlet

inductive Section (ι : Type) where
  | mk (title : String) (sections : List (Section ι)) (items : List ι)
  deriving Repr

namespace Section

variable {ι : Type}

def new (title : String) : Section ι := mk title [] []

def title : Section ι → String
  | mk title _ _ => title

def sections : Section ι → List (Section ι)
  | mk _ sections _ => sections

def items : Section ι → List ι
  | mk _ _ items => items

def pushSection (s child : Section ι) : Section ι := mk s.title (s.sections ++ [child]) s.items

def pushItem (s : Section ι) (item : ι) : Section ι := mk s.title s.sections (s.items ++ [item])

/-- The first child with a title. -/
def child? (s : Section ι) (title : String) : Option (Section ι) :=
  s.sections.find? fun c => c.title == title

@[simp] theorem title_pushSection (s c : Section ι) : (s.pushSection c).title = s.title := rfl
@[simp] theorem items_pushSection (s c : Section ι) : (s.pushSection c).items = s.items := rfl
@[simp] theorem sections_pushSection (s c : Section ι) :
    (s.pushSection c).sections = s.sections ++ [c] := rfl

@[simp] theorem title_pushItem (s : Section ι) (i : ι) : (s.pushItem i).title = s.title := rfl
@[simp] theorem items_pushItem (s : Section ι) (i : ι) : (s.pushItem i).items = s.items ++ [i] := rfl
@[simp] theorem sections_pushItem (s : Section ι) (i : ι) :
    (s.pushItem i).sections = s.sections := rfl

end Section

end Scriptlet
