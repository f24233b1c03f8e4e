import Scriptlet.Library.Builtin
import Scriptlet.Proofs.Value.Likeness

/-!
The operations of the standard library cannot tell like values apart: like arguments give like
results, or the same fault.
-/

namespace Scriptlet

namespace Library

open Value (Likeness Shape)

variable {R : Value → Value → Prop} (hR : Likeness R) {v w v' w' : Value} {function : String}
include hR

theorem mismatch_congr {expected : String} (h : R v w) :
    mismatch function expected v = mismatch function expected w := by
  rw [mismatch, mismatch, hR.typeName h]

theorem number_congr (h : R v w) : number function v = number function w := by
  rw [number, number, hR.float? h, mismatch_congr hR h]

theorem integer_congr (h : R v w) : integer function v = integer function w := by
  rw [integer, integer, hR.int? h, mismatch_congr hR h]

theorem text_congr (h : R v w) : text function v = text function w := by
  rw [text, text, hR.str? h, mismatch_congr hR h]

theorem items_congr (h : R v w) :
    SameUpTo (List.Forall₂ R) (items function v) (items function w) := by
  have hm : mismatch function "a list" v = mismatch function "a list" w := mismatch_congr hR h
  cases hR.shape h with
  | atom ha =>
    cases v <;> first | exact .error _ | exact .ok .nil | cases ha
  | list hs => exact .ok hs
  | closure _ =>
    rw [items, items, hm]
    · exact .error _
    all_goals simp

/-- A result that is made of data only. -/
theorem map_atom {α : Type} (x : Except Fault α) {f : α → Value} (hf : ∀ a, (f a).isAtom) :
    SameUpTo R (x.map f) (x.map f) := by
  cases x with
  | error e => exact .error e
  | ok a => exact .ok (hR.atom (hf a))

omit hR in
theorem binary_eq (op : Operator) (a b : Value) : binary op function a b =
    match a.int?, b.int? with
    | some i, some j => (op.onInts function i j).map .int
    | _, _ => do
      let x ← number function a
      let y ← number function b
      return .float (op.onFloats x y) := by
  cases a <;> cases b <;> rfl

theorem binary_congr (op : Operator) (h : R v w) (h' : R v' w') :
    SameUpTo R (binary op function v v') (binary op function w w') := by
  rw [binary_eq, binary_eq, hR.int? h, hR.int? h', number_congr hR h, number_congr hR h']
  split
  · exact map_atom hR _ fun _ => rfl
  · cases number function w with
    | error e => exact .error e
    | ok x =>
      cases number function w' with
      | error e => exact .error e
      | ok y => exact .ok (hR.atom rfl)

theorem combine_congr (op : Operator) {as bs : List Value} (h : List.Forall₂ R as bs) :
    SameUpTo R (combine op function as) (combine op function bs) := by
  cases h with
  | nil => exact .error _
  | @cons a b as bs hab hs =>
    rw [combine, combine, number_congr hR hab]
    cases number function b with
    | error e => exact .error e
    | ok _ => exact SameUpTo.foldlM (S := R) (fun _ _ _ _ h h' => binary_congr hR op h h') hs hab

theorem add_congr {as bs : List Value} (h : List.Forall₂ R as bs) :
    SameUpTo R (add as) (add bs) := by
  cases h with
  | nil => exact .ok (hR.atom rfl)
  | cons hab hs => exact combine_congr hR .add (.cons hab hs)

theorem multiply_congr {as bs : List Value} (h : List.Forall₂ R as bs) :
    SameUpTo R (multiply as) (multiply bs) := by
  cases h with
  | nil => exact .ok (hR.atom rfl)
  | cons hab hs => exact combine_congr hR .mul (.cons hab hs)

theorem divide_congr {as bs : List Value} (h : List.Forall₂ R as bs) :
    SameUpTo R (divide as) (divide bs) := by
  cases h with
  | nil => exact combine_congr hR .div .nil
  | cons hab hs =>
    cases hs with
    | nil => exact binary_congr hR .div (hR.atom rfl) hab
    | cons hab' hs => exact combine_congr hR .div (.cons hab (.cons hab' hs))

omit hR in
theorem subtract_one (v : Value) : subtract [v] =
    match v.int? with
    | some i => (exactly "-" (-i.toInt)).map .int
    | none => (number "-" v).map fun x => .float (-x) := by
  cases v <;> rfl

omit hR in
theorem subtract_more (v w : Value) (rest : List Value) :
    subtract (v :: w :: rest) = combine .sub "-" (v :: w :: rest) := by
  cases v <;> rfl

theorem subtract_congr {as bs : List Value} (h : List.Forall₂ R as bs) :
    SameUpTo R (subtract as) (subtract bs) := by
  cases h with
  | nil => exact combine_congr hR .sub .nil
  | cons hab hs =>
    cases hs with
    | nil =>
      rw [subtract_one, subtract_one, hR.int? hab, number_congr hR hab]
      split
      · exact map_atom hR _ fun _ => rfl
      · exact map_atom hR _ fun _ => rfl
    | cons hab' hs =>
      rw [subtract_more, subtract_more]
      exact combine_congr hR .sub (.cons hab (.cons hab' hs))

theorem dividend_congr (h : R v w) (h' : R v' w') :
    dividend function v v' = dividend function w w' := by
  rw [dividend, dividend, integer_congr hR h, integer_congr hR h']

omit hR in
theorem abs_eq (v : Value) : abs v =
    match v.int? with
    | some i => (exactly "abs" i.toInt.natAbs).map .int
    | none => (number "abs" v).map fun x => .float x.abs := by
  cases v <;> rfl

theorem abs_congr (h : R v w) : SameUpTo R (abs v) (abs w) := by
  rw [abs_eq, abs_eq, hR.int? h, number_congr hR h]
  split
  · exact map_atom hR _ fun _ => rfl
  · exact map_atom hR _ fun _ => rfl

omit hR in
theorem order_eq (a b : Value) : order function a b =
    match a.int?, b.int?, a.str?, b.str? with
    | some i, some j, _, _ => .ok (some (compareInts i.toInt j.toInt))
    | _, _, some s, some t => .ok (some (compareTexts s t))
    | _, _, _, _ => do
      let x ← number function a
      let y ← number function b
      return compareFloats? x y := by
  cases a <;> cases b <;> rfl

theorem compares_congr (c : Comparison) (h : R v w) (h' : R v' w') :
    compares c function v v' = compares c function w w' := by
  rw [compares, compares, order_eq, order_eq, hR.int? h, hR.int? h', hR.str? h, hR.str? h',
    number_congr hR h, number_congr hR h']

theorem best_congr (c : Comparison) {as bs : List Value} (h : List.Forall₂ R as bs) :
    SameUpTo R (best c function as) (best c function bs) := by
  cases h with
  | nil => exact .error _
  | @cons a b as bs hab hs =>
    rw [best, best, number_congr hR hab]
    cases number function b with
    | error e => exact .error e
    | ok _ =>
      refine SameUpTo.foldlM (fun v w v' w' h h' => ?_) hs hab
      rw [number_congr hR h', compares_congr hR c h' h]
      cases number function w' with
      | error e => exact .error e
      | ok _ =>
        cases compares c function w' w with
        | error e => exact .error e
        | ok found =>
          cases found with
          | true => exact .ok h'
          | false => exact .ok h

theorem ordered_congr (c : Comparison) {as bs : List Value} (h : List.Forall₂ R as bs) :
    ordered c function as = ordered c function bs := by
  induction h with
  | nil => rfl
  | cons hab hs ih =>
    cases hs with
    | nil => rfl
    | cons hab' hs => rw [ordered, ordered, compares_congr hR c hab hab', ih]

theorem isComparable_congr (h : R v w) : isComparable v = isComparable w :=
  (hR.shape h).congr rfl fun _ => rfl

theorem chain_congr (c : Comparison) {as bs : List Value} (h : List.Forall₂ R as bs) :
    SameUpTo R (chain c function as) (chain c function bs) := by
  have ho : ordered c function as = ordered c function bs := ordered_congr hR c h
  cases h with
  | nil => exact .ok (hR.atom rfl)
  | cons hab hs =>
    cases hs with
    | nil =>
      rw [chain, chain, isComparable_congr hR hab, mismatch_congr hR hab]
      split
      · exact .ok (hR.atom rfl)
      · exact .error _
    | cons _ _ =>
      rw [chain, chain, ho]
      · exact map_atom hR _ fun _ => rfl
      all_goals simp

theorem allAlike_congr {as bs : List Value} (h : List.Forall₂ R as bs) :
    allAlike as = allAlike bs := by
  induction h with
  | nil => rfl
  | cons hab hs ih =>
    cases hs with
    | nil => rfl
    | cons hab' hs => rw [allAlike, allAlike, hR.alike hab hab', ih]

theorem str_congr {as bs : List Value} (h : List.Forall₂ R as bs) :
    SameUpTo R (str as) (str bs) := by
  have hm : as.map Value.plain = bs.map Value.plain := by
    induction h with
    | nil => rfl
    | cons hab _ ih => rw [List.map_cons, List.map_cons, hR.plain hab, ih]
  rw [str, str, hm]
  exact .ok (hR.atom rfl)

theorem lengths_congr (h : R v w) :
    (items function v).map List.length = (items function w).map List.length := by
  generalize hv : items function v = x
  generalize hw : items function w = y
  have hs : SameUpTo (List.Forall₂ R) x y := hv ▸ hw ▸ items_congr hR h
  cases hs with
  | ok hs => exact congrArg Except.ok hs.length_eq
  | error e => rfl

omit hR in
theorem count_eq (v : Value) : count v =
    (((match v.str? with
      | some s => .ok s.length
      | none => (items "count" v).map List.length) : Except Fault Nat) >>= fun n =>
        (exactly "count" n).map .int) := by
  cases v <;> rfl

theorem count_congr (h : R v w) : SameUpTo R (count v) (count w) := by
  rw [count_eq, count_eq, hR.str? h, lengths_congr hR h]
  exact SameUpTo.bind_same _ fun n => map_atom hR _ fun _ => rfl

theorem first_congr (h : R v w) : SameUpTo R (first v) (first w) := by
  refine (items_congr hR h).map fun as bs hs => ?_
  cases hs with
  | nil => exact hR.atom rfl
  | cons hab _ => exact hab

theorem rest_congr (h : R v w) : SameUpTo R (rest v) (rest w) :=
  (items_congr hR h).map fun _ _ hs => hR.list (List.forall₂_drop 1 hs)

theorem nth_congr (h : R v w) (h' : R v' w') : SameUpTo R (nth v v') (nth w w') := by
  rw [nth, nth, integer_congr hR h']
  refine (items_congr hR h).bind fun as bs hs => SameUpTo.bind_same _ fun i => ?_
  have hi : Option.Rel R (if i < 0 then none else as[i.toInt.toNat]?)
      (if i < 0 then none else bs[i.toInt.toNat]?) := by
    split
    · exact .none
    · exact getElem?_rel hs _
  rw [hs.length_eq]
  generalize (if i < 0 then none else as[i.toInt.toNat]?) = a at hi ⊢
  generalize (if i < 0 then none else bs[i.toInt.toNat]?) = b at hi ⊢
  cases hi with
  | none => exact .error _
  | some hab => exact .ok hab

theorem conj_congr (h : R v w) {as bs : List Value} (hs : List.Forall₂ R as bs) :
    SameUpTo R (conj v as) (conj w bs) :=
  (items_congr hR h).map fun _ _ h' => hR.list (List.rel_append h' hs)

theorem concat_congr {as bs : List Value} (h : List.Forall₂ R as bs) :
    SameUpTo R (concat as) (concat bs) :=
  (SameUpTo.mapM (fun _ _ h => items_congr hR h) h).map fun _ _ hs => hR.list (List.rel_flatten hs)

theorem isEmpty_congr (h : R v w) : SameUpTo R (isEmpty v) (isEmpty w) := by
  cases hR.shape h with
  | atom ha =>
    cases v <;> first | exact .error _ | exact .ok (hR.atom rfl)
  | list hs =>
    cases hs with
    | nil => exact .ok (hR.atom rfl)
    | cons _ _ => exact .ok (hR.atom rfl)
  | closure _ => exact .error _

theorem isZero_congr (h : R v w) : SameUpTo R (isZero v) (isZero w) := by
  rw [isZero, isZero, number_congr hR h]
  exact map_atom hR _ fun _ => rfl

theorem quot_congr (h : R v w) (h' : R v' w') : SameUpTo R (quot v v') (quot w w') := by
  rw [quot, quot, dividend_congr hR h h']
  exact SameUpTo.bind_same _ fun p => map_atom hR _ fun _ => rfl

theorem rem_congr (h : R v w) (h' : R v' w') : SameUpTo R (rem v v') (rem w w') := by
  rw [rem, rem, dividend_congr hR h h']
  exact SameUpTo.bind_same _ fun p => map_atom hR _ fun _ => rfl

theorem mod_congr (h : R v w) (h' : R v' w') : SameUpTo R (mod v v') (mod w w') := by
  rw [mod, mod, dividend_congr hR h h']
  refine SameUpTo.bind_same _ fun p => SameUpTo.bind_same _ fun r => ?_
  split
  · exact .ok (hR.atom rfl)
  · exact .ok (hR.atom rfl)

theorem upperCase_congr (h : R v w) : SameUpTo R (upperCase v) (upperCase w) := by
  rw [upperCase, upperCase, text_congr hR h]
  exact map_atom hR _ fun _ => rfl

theorem lowerCase_congr (h : R v w) : SameUpTo R (lowerCase v) (lowerCase w) := by
  rw [lowerCase, lowerCase, text_congr hR h]
  exact map_atom hR _ fun _ => rfl

theorem isNumber_congr (h : R v w) : isNumber v = isNumber w :=
  (hR.shape h).congr rfl fun _ => rfl

theorem isString_congr (h : R v w) : isString v = isString w :=
  (hR.shape h).congr rfl fun _ => rfl

end Library

namespace Builtin

open Library

variable {R : Value → Value → Prop} {as bs : List Value}

theorem miscalled_congr (op : Builtin) (h : List.Forall₂ R as bs) :
    op.miscalled as = op.miscalled bs := by
  rw [miscalled, miscalled, h.length_eq]

theorem unary_congr (op : Builtin) {f : Value → Outcome}
    (hf : ∀ v w, R v w → SameUpTo R (f v) (f w)) (h : List.Forall₂ R as bs) :
    SameUpTo R (op.unary f as) (op.unary f bs) := by
  cases h with
  | nil => exact .error _
  | cons hab hs =>
    cases hs with
    | nil => exact hf _ _ hab
    | cons hab' hs =>
      rw [unary, unary, miscalled_congr op (.cons hab (.cons hab' hs))]
      · exact .error _
      all_goals simp

theorem binary_congr (op : Builtin) {f : Value → Value → Outcome}
    (hf : ∀ v w v' w', R v w → R v' w' → SameUpTo R (f v v') (f w w')) (h : List.Forall₂ R as bs) :
    SameUpTo R (op.binary f as) (op.binary f bs) := by
  have hm := miscalled_congr op h
  cases h with
  | nil => exact .error _
  | cons hab hs =>
    cases hs with
    | nil => exact .error _
    | cons hab' hs =>
      cases hs with
      | nil => exact hf _ _ _ _ hab hab'
      | cons _ _ =>
        rw [binary, binary, hm]
        · exact .error _
        all_goals simp

theorem test_congr (hR : Value.Likeness R) (op : Builtin) {p : Value → Bool}
    (hp : ∀ v w, R v w → p v = p w) (h : List.Forall₂ R as bs) :
    SameUpTo R (op.test p as) (op.test p bs) :=
  op.unary_congr (fun v w hv => hp v w hv ▸ .ok (hR.atom rfl)) h

/-- No operation tells like arguments apart. -/
theorem run_congr (hR : Value.Likeness R) (op : Builtin) (h : List.Forall₂ R as bs) :
    SameUpTo R (op.run as) (op.run bs) := by
  cases op with
  | add => exact add_congr hR h
  | subtract => exact subtract_congr hR h
  | multiply => exact multiply_congr hR h
  | divide => exact divide_congr hR h
  | quot => exact binary_congr _ (fun _ _ _ _ => quot_congr hR) h
  | rem => exact binary_congr _ (fun _ _ _ _ => rem_congr hR) h
  | mod => exact binary_congr _ (fun _ _ _ _ => mod_congr hR) h
  | inc => exact unary_congr _ (fun _ _ hv => Library.binary_congr hR _ hv (hR.atom rfl)) h
  | dec => exact unary_congr _ (fun _ _ hv => Library.binary_congr hR _ hv (hR.atom rfl)) h
  | abs => exact unary_congr _ (fun _ _ => abs_congr hR) h
  | min => exact best_congr hR _ h
  | max => exact best_congr hR _ h
  | equal =>
    rw [run, run, allAlike_congr hR h]
    exact .ok (hR.atom rfl)
  | notEqual =>
    rw [run, run, allAlike_congr hR h]
    exact .ok (hR.atom rfl)
  | less | greater | atMost | atLeast => exact chain_congr hR _ h
  | not => exact test_congr hR _ (fun _ _ hv => by rw [hR.isTruthy hv]) h
  | isNil => exact test_congr hR _ (fun _ _ => hR.isNil) h
  | isZero => exact unary_congr _ (fun _ _ => isZero_congr hR) h
  | isEmpty => exact unary_congr _ (fun _ _ => isEmpty_congr hR) h
  | isNumber => exact test_congr hR _ (fun _ _ => isNumber_congr hR) h
  | isString => exact test_congr hR _ (fun _ _ => isString_congr hR) h
  | str => exact str_congr hR h
  | upperCase => exact unary_congr _ (fun _ _ => upperCase_congr hR) h
  | lowerCase => exact unary_congr _ (fun _ _ => lowerCase_congr hR) h
  | list => exact .ok (hR.list h)
  | count => exact unary_congr _ (fun _ _ => count_congr hR) h
  | first => exact unary_congr _ (fun _ _ => first_congr hR) h
  | rest => exact unary_congr _ (fun _ _ => rest_congr hR) h
  | nth => exact binary_congr _ (fun _ _ _ _ => nth_congr hR) h
  | conj =>
    cases h with
    | nil => exact .error _
    | cons hab hs => exact conj_congr hR hab hs
  | concat => exact concat_congr hR h

end Builtin

end Scriptlet
