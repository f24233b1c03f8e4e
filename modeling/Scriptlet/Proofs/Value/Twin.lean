import Scriptlet.Proofs.Node
import Scriptlet.Proofs.Value.Likeness

/-!
Values that are the same up to the identities of closures. Twin closures have the same code, closed,
and keep twins of the same names. They may keep them in a different order, and what the code mentions
has to be its own twin, since the call of a twin runs that code too.
-/

namespace Scriptlet

namespace Value

inductive Twin (ρ : Identity → Identity → Prop) : Value → Value → Prop where
  | atom {v} (h : v.isAtom) : Twin ρ v v
  | list {as bs} (hlength : as.length = bs.length) (h : ∀ p ∈ as.zip bs, Twin ρ p.1 p.2) :
      Twin ρ (.list as) (.list bs)
  | closure {i j l kept kept'} (hid : ρ i j) (hclosed : l.Closed)
      (hnames : kept.map (·.1) = l.captures) (hnames' : kept'.map (·.1) = l.captures)
      (hkept : ∀ x v w, kept.lookup x = some v → kept'.lookup x = some w → Twin ρ v w)
      (hconst : ∀ n ∈ l.body, ∀ v, n.Mentions v → Twin ρ v v) :
      Twin ρ (.function (.closure i l kept)) (.function (.closure j l kept'))

namespace Twin

variable {ρ ρ' : Identity → Identity → Prop} {v w : Value}

theorem mono (h : Twin ρ v w) (hρ : ∀ i j, ρ i j → ρ' i j) : Twin ρ' v w := by
  induction h with
  | atom ha => exact .atom ha
  | list hlength _ ih => exact .list hlength ih
  | closure hid hclosed hnames hnames' _ _ ihkept ihconst =>
    exact .closure (hρ _ _ hid) hclosed hnames hnames' ihkept ihconst

theorem of_forall₂ {as bs : List Value} (h : List.Forall₂ (Twin ρ) as bs) :
    Twin ρ (.list as) (.list bs) := by
  obtain ⟨hlength, hzip⟩ := List.forall₂_iff_zip.1 h
  exact .list hlength fun p hp => hzip (a := p.1) (b := p.2) hp

theorem shape (h : Twin ρ v w) : Shape (Twin ρ) v w := by
  cases h with
  | atom ha => exact .atom ha
  | list hlength hzip => exact .list (List.forall₂_iff_zip.2 ⟨hlength, fun hp => hzip _ hp⟩)
  | closure => exact .closure rfl

/-- Twin functions are told apart alike if each identity has one counterpart only. -/
theorem likeness (hρ : ∀ i j i' j', ρ i j → ρ i' j' → (i = i' ↔ j = j')) : Likeness (Twin ρ) where
  atom := .atom
  list := of_forall₂
  shape := shape
  same := by
    intro f g f' g' h h'
    cases h with
    | atom ha =>
      cases f with
      | closure => cases ha
      | native f =>
        cases h' with
        | atom _ => rfl
        | closure => rfl
    | closure hid =>
      cases h' with
      | atom ha =>
        cases f' with
        | closure => cases ha
        | native f' => rfl
      | closure hid' => exact decide_eq_decide.2 (hρ _ _ _ _ hid hid')

end Twin

end Value

end Scriptlet
