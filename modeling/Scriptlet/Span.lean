/-!
Places in a source text. Offsets count bytes of the text's UTF-8 encoding.
-/

namespace Scriptlet

structure Span where
  start : Nat
  stop : Nat
  deriving DecidableEq, Repr, Inhabited

namespace Span

/-- The empty span at one offset. -/
def point (pos : Nat) : Span := ⟨pos, pos⟩

def display (s : Span) : String := s!"{s.start}..{s.stop}"

end Span

/-- Number of bytes that the characters take in UTF-8. -/
def utf8Length : List Char → Nat
  | [] => 0
  | c :: cs => c.utf8Size + utf8Length cs

@[simp] theorem utf8Length_nil : utf8Length [] = 0 := rfl

@[simp] theorem utf8Length_cons (c : Char) (cs : List Char) :
    utf8Length (c :: cs) = c.utf8Size + utf8Length cs := rfl

@[simp] theorem utf8Length_append (cs ds : List Char) :
    utf8Length (cs ++ ds) = utf8Length cs + utf8Length ds := by
  induction cs with
  | nil => simp
  | cons c cs ih => simp [ih, Nat.add_assoc]

theorem utf8Length_toList (s : String) : utf8Length s.toList = s.utf8ByteSize := by
  have h : ∀ cs : List Char, utf8Length cs = (String.ofList cs).utf8ByteSize := by
    intro cs
    induction cs with
    | nil => rfl
    | cons c cs ih =>
      rw [utf8Length_cons, String.ofList_cons, String.utf8ByteSize_append,
        String.utf8ByteSize_singleton, ih]
  rw [h, String.ofList_toList]

/-- Drops whole characters from the front while they fit in the given number of bytes. -/
def dropBytes : Nat → List Char → List Char
  | _, [] => []
  | 0, cs => cs
  | n + 1, c :: cs => dropBytes (n + 1 - c.utf8Size) cs

/-- Keeps whole characters from the front while bytes of them are wanted. -/
def takeBytes : Nat → List Char → List Char
  | _, [] => []
  | 0, _ => []
  | n + 1, c :: cs => c :: takeBytes (n + 1 - c.utf8Size) cs

/-- The part of the source that a span covers, for a span whose ends lie between characters. -/
def Span.text (s : Span) (source : List Char) : List Char :=
  takeBytes (s.stop - s.start) (dropBytes s.start source)

end Scriptlet
