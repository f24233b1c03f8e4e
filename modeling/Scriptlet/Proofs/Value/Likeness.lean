import Mathlib.Data.List.Forall2
import Scriptlet.Value.Equality
import Scriptlet.Value.Printer

/-!
Relations between values that nothing but a call can tell apart. A likeness leaves atoms alone, goes
through lists item by item, and may relate closures that differ in their code, their captures and
their identities. What remains to be seen of two like values is then the same.
-/

namespace Scriptlet

/-- Both succeed, with related results, or both fail with the same error. -/
inductive SameUpTo {ε α β : Type} (R : α → β → Prop) : Except ε α → Except ε β → Prop where
  | ok {a b} (h : R a b) : SameUpTo R (.ok a) (.ok b)
  | error (e) : SameUpTo R (.error e) (.error e)

namespace SameUpTo

variable {ε α β γ δ : Type} {R : α → β → Prop} {S : γ → δ → Prop}

theorem mono {R' : α → β → Prop} {x : Except ε α} {y : Except ε β} (h : SameUpTo R x y)
    (hR : ∀ a b, R a b → R' a b) : SameUpTo R' x y := by
  cases h with
  | ok h => exact .ok (hR _ _ h)
  | error e => exact .error e

theorem bind {x : Except ε α} {y : Except ε β} {f : α → Except ε γ} {g : β → Except ε δ}
    (h : SameUpTo R x y) (hf : ∀ a b, R a b → SameUpTo S (f a) (g b)) :
    SameUpTo S (x >>= f) (y >>= g) := by
  cases h with
  | ok h => exact hf _ _ h
  | error e => exact .error e

theorem map {x : Except ε α} {y : Except ε β} {f : α → γ} {g : β → δ} (h : SameUpTo R x y)
    (hf : ∀ a b, R a b → S (f a) (g b)) : SameUpTo S (x.map f) (y.map g) := by
  cases h with
  | ok h => exact .ok (hf _ _ h)
  | error e => exact .error e

theorem mapError {ε' : Type} {x : Except ε α} {y : Except ε β} (h : SameUpTo R x y) (f : ε → ε') :
    SameUpTo R (x.mapError f) (y.mapError f) := by
  cases h with
  | ok h => exact .ok h
  | error e => exact .error (f e)

theorem bind_same (x : Except ε α) {f : α → Except ε γ} {g : α → Except ε δ}
    (hf : ∀ a, SameUpTo S (f a) (g a)) : SameUpTo S (x >>= f) (x >>= g) := by
  cases x with
  | error e => exact .error e
  | ok a => exact hf a

theorem foldlM {f : α → γ → Except ε α} {g : β → δ → Except ε β}
    (hf : ∀ a b c d, R a b → S c d → SameUpTo R (f a c) (g b d)) {cs : List γ} {ds : List δ}
    (h : List.Forall₂ S cs ds) {a : α} {b : β} (hab : R a b) :
    SameUpTo R (cs.foldlM f a) (ds.foldlM g b) := by
  induction h generalizing a b with
  | nil => exact .ok hab
  | cons hcd _ ih =>
    rw [List.foldlM_cons, List.foldlM_cons]
    exact (hf _ _ _ _ hab hcd).bind fun _ _ => ih

theorem mapM {f : γ → Except ε α} {g : δ → Except ε β} (hf : ∀ c d, S c d → SameUpTo R (f c) (g d))
    {cs : List γ} {ds : List δ} (h : List.Forall₂ S cs ds) :
    SameUpTo (List.Forall₂ R) (cs.mapM f) (ds.mapM g) := by
  induction h with
  | nil => exact .ok .nil
  | cons hcd _ ih =>
    rw [List.mapM_cons, List.mapM_cons]
    exact (hf _ _ hcd).bind fun _ _ hab => ih.bind fun _ _ hs => .ok (.cons hab hs)

end SameUpTo

theorem getElem?_rel {α β : Type} {R : α → β → Prop} {as : List α} {bs : List β}
    (h : List.Forall₂ R as bs) (i : Nat) : Option.Rel R as[i]? bs[i]? := by
  induction h generalizing i with
  | nil => exact .none
  | cons hab _ ih =>
    cases i with
    | zero => exact .some hab
    | succ i => exact ih i

/-- Neither a list nor a closure. -/
def Value.isAtom : Value → Bool
  | .list _ | .function (.closure ..) => false
  | _ => true

/-- Two values of the same outward form. -/
inductive Value.Shape (R : Value → Value → Prop) : Value → Value → Prop where
  | atom {v} (h : v.isAtom) : Shape R v v
  | list {as bs} (h : List.Forall₂ R as bs) : Shape R (.list as) (.list bs)
  | closure {i j l l' kept kept'} (h : l.params = l'.params) :
      Shape R (.function (.closure i l kept)) (.function (.closure j l' kept'))

structure Value.Likeness (R : Value → Value → Prop) : Prop where
  atom : ∀ {v}, v.isAtom → R v v
  list : ∀ {as bs}, List.Forall₂ R as bs → R (.list as) (.list bs)
  shape : ∀ {v w}, R v w → Value.Shape R v w
  same : ∀ {f g f' g'}, R (.function f) (.function g) → R (.function f') (.function g') →
    f.same f' = g.same g'

namespace Value

variable {R : Value → Value → Prop}

/-- A shape is enough for everything that does not look into lists. -/
theorem Shape.congr {α : Type} {f : Value → α} {v w : Value} (h : Shape R v w)
    (list : ∀ {as bs}, f (.list as) = f (.list bs))
    (closure : ∀ {i j l l' kept kept'}, l.params = l'.params →
      f (.function (.closure i l kept)) = f (.function (.closure j l' kept'))) : f v = f w := by
  cases h with
  | atom _ => rfl
  | list _ => exact list
  | closure h => exact closure h

namespace Likeness

variable (hR : Likeness R) {v w : Value}
include hR

theorem typeName (h : R v w) : v.typeName = w.typeName :=
  (hR.shape h).congr rfl fun _ => rfl

theorem isTruthy (h : R v w) : v.isTruthy = w.isTruthy :=
  (hR.shape h).congr rfl fun _ => rfl

theorem isNil (h : R v w) : v.isNil = w.isNil :=
  (hR.shape h).congr rfl fun _ => rfl

theorem int? (h : R v w) : v.int? = w.int? :=
  (hR.shape h).congr rfl fun _ => rfl

theorem float? (h : R v w) : v.float? = w.float? :=
  (hR.shape h).congr rfl fun _ => rfl

theorem str? (h : R v w) : v.str? = w.str? :=
  (hR.shape h).congr rfl fun _ => rfl

end Likeness

mutual

theorem Likeness.display (hR : Likeness R) :
    ∀ {v w : Value}, R v w → Value.display v = Value.display w
  | .list as, w, h => by
    cases hR.shape h with
    | atom ha => cases ha
    | list hs => rw [Value.display, Value.display, hR.displayAll hs]
  | .nil, w, h | .bool _, w, h | .int _, w, h | .float _, w, h | .str _, w, h
  | .function (.native _), w, h => by cases hR.shape h with | atom _ => rfl
  | .function (.closure ..), w, h => by
    cases hR.shape h with
    | atom ha => cases ha
    | closure hp => simp only [Value.display, Function.display, hp]

theorem Likeness.displayAll (hR : Likeness R) :
    ∀ {as bs : List Value}, List.Forall₂ R as bs → Value.displayAll as = Value.displayAll bs
  | [], _, .nil => rfl
  | a :: as, b :: bs, .cons h hs => by
    rw [Value.displayAll, Value.displayAll, hR.display h, hR.displayAll hs]

end

theorem Likeness.plain (hR : Likeness R) {v w : Value} (h : R v w) : v.plain = w.plain := by
  have hd := hR.display h
  cases hR.shape h with
  | atom _ => rfl
  | list _ => exact hd
  | closure _ => exact hd

mutual

/-- Like values are alike, in the sense of the language, to the same values. -/
theorem Likeness.alike (hR : Likeness R) : ∀ {a b a' b' : Value}, R a b → R a' b' →
    a.alike a' = b.alike b'
  | .list as, b, a', b', h, h' => by
    cases hR.shape h with
    | atom ha => cases ha
    | list hs =>
      cases hR.shape h' with
      | atom ha => cases a' <;> first | rfl | cases ha
      | list hs' => exact hR.alikeAll hs hs'
      | closure _ => rfl
  | .function (.closure ..), b, a', b', h, h' => by
    cases hR.shape h with
    | atom ha => cases ha
    | closure _ =>
      cases hR.shape h' with
      | atom ha => cases a' <;> first | rfl | exact hR.same h h'
      | list _ => rfl
      | closure _ => exact hR.same h h'
  | .nil, b, a', b', h, h' | .bool _, b, a', b', h, h' | .int _, b, a', b', h, h'
  | .float _, b, a', b', h, h' | .str _, b, a', b', h, h'
  | .function (.native _), b, a', b', h, h' => by
    cases hR.shape h with
    | atom _ =>
      cases hR.shape h' with
      | atom _ => rfl
      | list _ => rfl
      | closure _ => rfl

theorem Likeness.alikeAll (hR : Likeness R) : ∀ {as bs as' bs' : List Value},
    List.Forall₂ R as bs → List.Forall₂ R as' bs' →
      Value.alikeAll as as' = Value.alikeAll bs bs'
  | [], _, _, _, .nil, .nil => rfl
  | [], _, _, _, .nil, .cons _ _ => rfl
  | _ :: _, _, _, _, .cons _ _, .nil => rfl
  | a :: as, _, _, _, .cons h hs, .cons h' hs' => by
    simp only [Value.alikeAll, hR.alike h h', hR.alikeAll hs hs']

end

end Value

end Scriptlet
