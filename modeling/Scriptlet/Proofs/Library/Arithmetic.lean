import Mathlib.Data.List.Induction
import Scriptlet.Proofs.Decimal.Digits
import Scriptlet.Proofs.Library.Likeness

/-!
Arithmetic is exact or it fails. Integers are combined from left to right as in the integers without
bounds, and the first step that has no result in 64 bits, or that divides by zero, is the fault. With
a float among the arguments the result is a float from there on, and nothing overflows.
-/

namespace Scriptlet

open Library

/-- What an arithmetic call computes. -/
inductive Arithmetic where
  | combined (op : Operator)
  | negative
  | reciprocal
  | successor
  | predecessor
  | magnitude
  deriving DecidableEq, Repr

namespace Library

/-- Division truncates toward zero. -/
def Operator.exact : Operator → Int → Int → Int
  | add, x, y => x + y
  | sub, x, y => x - y
  | mul, x, y => x * y
  | div, x, y => x.tdiv y

end Library

/-- The arguments, if they are all integers. -/
def ints? : List Value → Option (List Int64)
  | [] => some []
  | .int i :: vs => (ints? vs).map (i :: ·)
  | _ :: _ => none

/-- The number has 64 bits. -/
def InRange (i : Int) : Prop := -2 ^ 63 ≤ i ∧ i < 2 ^ 63

instance : DecidablePred InRange := fun _ => inferInstanceAs (Decidable (_ ∧ _))

namespace Arithmetic

/-- The result in the integers without bounds, from left to right. -/
def exact : Arithmetic → List Int → Int
  | combined op, x :: xs => xs.foldl op.exact x
  | negative, [x] => -x
  | reciprocal, [x] => Int.tdiv 1 x
  | successor, [x] => x + 1
  | predecessor, [x] => x - 1
  | magnitude, [x] => x.natAbs
  | _, _ => 0

/-- Whether the argument at a place is a divisor. The first of several is the dividend. -/
def divides : Arithmetic → Nat → Bool
  | combined .div, n => n != 0
  | reciprocal, _ => true
  | _, _ => false

/-- What is wrong with an argument after earlier ones, if anything is. Where a float is involved
nothing divides by zero or overflows. -/
def offence? (a : Arithmetic) (function : String) (earlier : List Value) (v : Value) :
    Option Fault :=
  match v, ints? earlier with
  | .int i, some is =>
    if a.divides is.length ∧ i = 0 then some .zeroDivisor
    else if InRange (a.exact ((is ++ [i]).map Int64.toInt)) then none
    else some (.overflow function)
  | .int _, none | .float _, _ => none
  | v, _ => some (.wrongType function "a number" v.typeName)

/-- No argument offends. -/
def Clean (a : Arithmetic) (function : String) (args : List Value) : Prop :=
  ∀ earlier v later, args = earlier ++ v :: later → a.offence? function earlier v = none

/-- The fault of the first argument that offends. -/
def FirstOffence (a : Arithmetic) (function : String) (args : List Value) (f : Fault) : Prop :=
  ∃ earlier v later, args = earlier ++ v :: later ∧ a.offence? function earlier v = some f ∧
    a.Clean function earlier

/-- The exact result for integers, and a float as soon as one argument is a float. -/
def Carries (a : Arithmetic) (args : List Value) (v : Value) : Prop :=
  match ints? args with
  | some is => ∃ r : Int64, v = .int r ∧ r.toInt = a.exact (is.map Int64.toInt)
  | none => ∃ x, v = .float x

end Arithmetic

section Ints

variable {vs : List Value} {is : List Int64}

theorem ints?_eq_some_iff : ints? vs = some is ↔ vs = is.map .int := by
  induction vs generalizing is with
  | nil => cases is <;> simp [ints?]
  | cons v vs ih => cases is <;> cases v <;> simp [ints?, ih, and_comm]

theorem ints?_map : ints? (is.map .int) = some is := ints?_eq_some_iff.2 rfl

theorem ints?_concat_int (h : ints? vs = some is) (i : Int64) :
    ints? (vs ++ [.int i]) = some (is ++ [i]) := by
  rw [ints?_eq_some_iff] at h ⊢
  rw [h, List.map_append]
  rfl

theorem ints?_concat_none (h : ints? vs = none) (v : Value) : ints? (vs ++ [v]) = none := by
  rw [Option.eq_none_iff_forall_ne_some] at h ⊢
  intro js hjs
  obtain ⟨is, js', -, his, -⟩ := List.map_eq_append_iff.1 (ints?_eq_some_iff.1 hjs).symm
  exact h is (ints?_eq_some_iff.2 his.symm)

theorem ints?_concat_of_int? {v : Value} (h : v.int? = none) : ints? (vs ++ [v]) = none := by
  rw [Option.eq_none_iff_forall_ne_some]
  intro js hjs
  obtain ⟨is, js', -, -, hjs'⟩ := List.map_eq_append_iff.1 (ints?_eq_some_iff.1 hjs).symm
  obtain ⟨i, rest, -, rfl, -⟩ := List.map_eq_cons_iff.1 hjs'
  cases h

end Ints

namespace Library

variable {function : String} {i : Int}

theorem exactly_of_inRange (function : String) (h : InRange i) :
    ∃ r : Int64, exactly function i = .ok r ∧ r.toInt = i := by
  refine ⟨Int64.ofInt i, ?_, Int64.toInt_ofInt_of_le h.1 h.2⟩
  rw [exactly, int64?, if_pos (Word.fitsInt64_iff.2 h)]

theorem exactly_of_not_inRange (h : ¬ InRange i) :
    exactly function i = .error (.overflow function) := by
  rw [exactly, int64?, if_neg (mt Word.fitsInt64_iff.1 h)]

theorem exactly_toInt (i : Int64) : exactly function i.toInt = .ok i := by
  rw [exactly, int64?_toInt]

theorem onInts_eq (op : Operator) (i j : Int64) : op.onInts function i j =
    if op = .div ∧ j = 0 then .error .zeroDivisor
    else exactly function (op.exact i.toInt j.toInt) := by
  cases op <;> simp [Operator.onInts, Operator.exact]

/-- With a number that is not an integer on either side the result is a float. -/
theorem binary_eq_float {acc v : Value} {x : Float} (op : Operator)
    (hacc : number function acc = .ok x) (h : acc.int? = none ∨ v.int? = none) :
    binary op function acc v = (number function v).map fun y => .float (op.onFloats x y) := by
  have hcases : binary op function acc v = (do
      let x ← number function acc
      let y ← number function v
      return .float (op.onFloats x y)) := by
    rw [binary_eq]
    rcases h with h | h <;> rw [h]
    split
    · next h => cases h
    · rfl
  rw [hcases, hacc]
  cases number function v <;> rfl

theorem binary_int_one {v : Value} (op : Operator) (function : String) (hv : v.int? = none) :
    binary op function v (.int 1) =
      (number function v).map fun x => .float (op.onFloats x (Float.ofInt (1 : Int64).toInt)) := by
  cases v <;> first | rfl | cases hv

end Library

namespace Arithmetic

variable {a : Arithmetic} {function : String} {earlier args : List Value} {v acc : Value}
  {is : List Int64} {f g : Fault} {out : Outcome}

section Offences

/-- An argument among some is the last, or there is one after it. -/
theorem concat_eq_append_cons {e l : List Value} {w : Value} : earlier ++ [v] = e ++ w :: l ↔
    (e = earlier ∧ w = v ∧ l = []) ∨ ∃ l', earlier = e ++ w :: l' ∧ l = l' ++ [v] := by
  constructor
  · intro hsplit
    obtain rfl | ⟨l', u, rfl⟩ := List.eq_nil_or_concat' l
    · obtain ⟨rfl, hw⟩ := List.append_inj' hsplit rfl
      cases hw
      exact .inl ⟨rfl, rfl, rfl⟩
    · rw [← List.cons_append, ← List.append_assoc] at hsplit
      obtain ⟨rfl, hu⟩ := List.append_inj' hsplit rfl
      cases hu
      exact .inr ⟨l', rfl, rfl⟩
  · rintro (⟨rfl, rfl, rfl⟩ | ⟨l', rfl, rfl⟩) <;> simp

theorem clean_nil : a.Clean function [] := fun _ _ _ h => by simp at h

theorem clean_concat :
    a.Clean function (earlier ++ [v]) ↔
      a.Clean function earlier ∧ a.offence? function earlier v = none := by
  constructor
  · intro h
    exact ⟨fun e w l hsplit => h e w (l ++ [v]) (concat_eq_append_cons.2 (.inr ⟨l, hsplit, rfl⟩)),
      h earlier v [] rfl⟩
  · rintro ⟨h, hv⟩ e w l hsplit
    obtain ⟨rfl, rfl, -⟩ | ⟨l', hsplit, -⟩ := concat_eq_append_cons.1 hsplit
    · exact hv
    · exact h e w l' hsplit

theorem clean_singleton : a.Clean function [v] ↔ a.offence? function [] v = none := by
  rw [← List.nil_append [v], clean_concat]
  exact and_iff_right clean_nil

theorem firstOffence_concat :
    a.FirstOffence function (earlier ++ [v]) f ↔ a.FirstOffence function earlier f ∨
      a.Clean function earlier ∧ a.offence? function earlier v = some f := by
  constructor
  · rintro ⟨e, w, l, hsplit, hw, he⟩
    obtain ⟨rfl, rfl, -⟩ | ⟨l', hsplit, -⟩ := concat_eq_append_cons.1 hsplit
    · exact .inr ⟨he, hw⟩
    · exact .inl ⟨e, w, l', hsplit, hw, he⟩
  · rintro (⟨e, w, l, hsplit, hw, he⟩ | ⟨he, hv⟩)
    · exact ⟨e, w, l ++ [v], concat_eq_append_cons.2 (.inr ⟨l, hsplit, rfl⟩), hw, he⟩
    · exact ⟨earlier, v, [], rfl, hv, he⟩

theorem offence?_ints {i : Int64} :
    a.offence? function (is.map .int) (.int i) = none ↔
      ¬ (a.divides is.length = true ∧ i = 0) ∧ InRange (a.exact ((is ++ [i]).map Int64.toInt)) := by
  simp only [offence?, ints?_map]
  split
  · next hzero => simp [hzero]
  · next hzero =>
    split
    · next hrange => exact iff_of_true rfl ⟨hzero, hrange⟩
    · next hrange => exact iff_of_false (by simp) fun h => hrange h.2

/-- Among integers no argument offends if no step divides by zero or leaves the range. -/
theorem clean_ints_iff (a : Arithmetic) (function : String) (is : List Int64) :
    a.Clean function (is.map .int) ↔ ∀ earlier i later, is = earlier ++ i :: later →
      ¬ (a.divides earlier.length = true ∧ i = 0) ∧
        InRange (a.exact ((earlier ++ [i]).map Int64.toInt)) := by
  constructor
  · intro h earlier i later hsplit
    refine offence?_ints.1 (h _ _ (later.map .int) ?_)
    rw [hsplit, List.map_append, List.map_cons]
  · intro h e w l hsplit
    obtain ⟨earlier, rest, rfl, rfl, hrest⟩ := List.map_eq_append_iff.1 hsplit
    obtain ⟨i, later, rfl, rfl, -⟩ := List.map_eq_cons_iff.1 hrest
    exact offence?_ints.2 (h earlier i later rfl)

theorem FirstOffence.not_clean (h : a.FirstOffence function args f) :
    ¬ a.Clean function args := by
  obtain ⟨e, w, l, hsplit, hw, -⟩ := h
  intro hclean
  rw [hclean e w l hsplit] at hw
  cases hw

/-- Only one argument offends first. -/
theorem FirstOffence.unique (h : a.FirstOffence function args f)
    (h' : a.FirstOffence function args g) : f = g := by
  induction args using List.reverseRecOn with
  | nil => exact absurd clean_nil h.not_clean
  | append_singleton earlier v ih =>
    obtain h | ⟨hclean, hv⟩ := firstOffence_concat.1 h <;>
      obtain h' | ⟨hclean', hv'⟩ := firstOffence_concat.1 h'
    · exact ih h h'
    · exact absurd hclean' h.not_clean
    · exact absurd hclean h'.not_clean
    · exact Option.some.inj (hv.symm.trans hv')

end Offences

theorem carries_ints_iff : a.Carries (is.map .int) v ↔
    ∃ r : Int64, v = .int r ∧ r.toInt = a.exact (is.map Int64.toInt) := by
  rw [Carries, ints?_map]

theorem carries_int_iff {r : Int64} : a.Carries args (.int r) ↔
    ∃ is : List Int64, args = is.map .int ∧ r.toInt = a.exact (is.map Int64.toInt) := by
  constructor
  · intro h
    cases hargs : ints? args with
    | none =>
      rw [Carries, hargs] at h
      obtain ⟨x, hx⟩ := h
      cases hx
    | some is =>
      obtain rfl := ints?_eq_some_iff.1 hargs
      obtain ⟨r', hr', hexact⟩ := carries_ints_iff.1 h
      cases hr'
      exact ⟨is, rfl, hexact⟩
  · rintro ⟨is, rfl, hexact⟩
    exact carries_ints_iff.2 ⟨r, rfl, hexact⟩

/-- The outcome of the step that an argument makes after earlier ones. -/
def Judges (a : Arithmetic) (function : String) (earlier : List Value) (v : Value) :
    Outcome → Prop
  | .ok acc => a.offence? function earlier v = none ∧ a.Carries (earlier ++ [v]) acc
  | .error f => a.offence? function earlier v = some f

/-- The outcome of a whole call. -/
def Settles (a : Arithmetic) (function : String) (args : List Value) : Outcome → Prop
  | .ok v => a.Clean function args ∧ a.Carries args v
  | .error f => a.FirstOffence function args f

theorem Judges.settles (h : a.Judges function earlier v out) (hclean : a.Clean function earlier) :
    a.Settles function (earlier ++ [v]) out := by
  cases out with
  | ok acc => exact ⟨clean_concat.2 ⟨hclean, h.1⟩, h.2⟩
  | error f => exact firstOffence_concat.2 (.inr ⟨hclean, h⟩)

/-- One more argument. After a fault nothing more happens. -/
theorem Settles.bind (h : a.Settles function earlier out) {k : Value → Outcome}
    (hk : ∀ acc, a.Carries earlier acc → a.Judges function earlier v (k acc)) :
    a.Settles function (earlier ++ [v]) (out >>= k) := by
  cases out with
  | ok acc => exact (hk acc h.2).settles h.1
  | error f => exact firstOffence_concat.2 (.inl h)

theorem judges_int (h : ints? earlier = some is) {i : Int64}
    (hout : out = if a.divides is.length = true ∧ i = 0 then .error .zeroDivisor
      else (exactly function (a.exact ((is ++ [i]).map Int64.toInt))).map .int) :
    a.Judges function earlier (.int i) out := by
  by_cases hzero : a.divides is.length = true ∧ i = 0
  · rw [hout, if_pos hzero]
    simp only [Judges, offence?, h, if_pos hzero]
  · rw [hout, if_neg hzero]
    by_cases hrange : InRange (a.exact ((is ++ [i]).map Int64.toInt))
    · obtain ⟨r, hr, hexact⟩ := exactly_of_inRange function hrange
      rw [hr]
      refine ⟨by simp only [offence?, h, if_neg hzero, if_pos hrange], ?_⟩
      rw [Carries, ints?_concat_int h]
      exact ⟨r, rfl, hexact⟩
    · rw [exactly_of_not_inRange hrange]
      simp only [Judges, Except.map, offence?, h, if_neg hzero, if_neg hrange]

theorem judges_float (h : ints? (earlier ++ [v]) = none) {k : Float → Float}
    (hout : out = (number function v).map fun x => .float (k x)) :
    a.Judges function earlier v out := by
  rw [hout]
  cases v with
  | int i =>
    have hearlier : ints? earlier = none := by
      by_contra hsome
      obtain ⟨is, his⟩ := Option.ne_none_iff_exists'.1 hsome
      rw [ints?_concat_int his] at h
      cases h
    refine ⟨by simp only [offence?, hearlier], ?_⟩
    rw [Carries, h]
    exact ⟨_, rfl⟩
  | float x =>
    refine ⟨by simp only [offence?], ?_⟩
    rw [Carries, h]
    exact ⟨_, rfl⟩
  | nil | bool | str | list | function => rfl

/-- One argument alone, with the two ways in which the result can come about. -/
theorem settles_one {f : Value → Outcome}
    (hint : ∀ i, f (.int i) = if a.divides 0 = true ∧ i = 0 then .error .zeroDivisor
      else (exactly function (a.exact [i.toInt])).map .int)
    {k : Float → Float} (hfloat : ∀ v : Value, v.int? = none →
      f v = (number function v).map fun x => .float (k x)) (v : Value) :
    a.Settles function [v] (f v) := by
  refine Judges.settles ?_ clean_nil
  cases hv : v.int? with
  | none => exact judges_float (ints?_concat_of_int? hv) (hfloat v hv)
  | some i =>
    cases v <;> cases hv
    exact judges_int (show ints? [] = some [] from rfl) (hint i)

/-- The exact result goes on from the exact result of what comes before. -/
theorem exact_combined_concat (op : Operator) {xs : List Int} (hne : xs ≠ []) (x : Int) :
    (combined op).exact (xs ++ [x]) = op.exact ((combined op).exact xs) x := by
  obtain ⟨y, ys, rfl⟩ := List.exists_cons_of_ne_nil hne
  exact List.foldl_concat op.exact y x ys

theorem divides_combined (op : Operator) {n : Nat} (hn : n ≠ 0) :
    (combined op).divides n = true ↔ op = .div := by
  cases op <;> simp [divides, hn]

/-- An argument after others is combined with what they have come to. -/
theorem judges_binary {op : Operator} (hne : earlier ≠ [])
    (hacc : (combined op).Carries earlier acc) (v : Value) :
    (combined op).Judges function earlier v (Library.binary op function acc v) := by
  rw [Carries] at hacc
  cases hearlier : ints? earlier with
  | none =>
    rw [hearlier] at hacc
    obtain ⟨x, rfl⟩ := hacc
    exact judges_float (ints?_concat_none hearlier v) (binary_eq_float op rfl (.inl rfl))
  | some is =>
    rw [hearlier] at hacc
    obtain ⟨r, rfl, hexact⟩ := hacc
    cases hv : v.int? with
    | none => exact judges_float (ints?_concat_of_int? hv) (binary_eq_float op rfl (.inr hv))
    | some i =>
      cases v <;> cases hv
      -- There are integers before this one, so it is no dividend.
      have hints : is ≠ [] := by
        rintro rfl
        exact hne (ints?_eq_some_iff.1 hearlier)
      refine judges_int hearlier ?_
      rw [Library.binary, onInts_eq, List.map_append, List.map_singleton,
        exact_combined_concat op (by simpa using hints), ← hexact]
      simp only [divides_combined op (mt List.length_eq_zero_iff.1 hints)]
      split <;> rfl

/-- The first of several arguments is only looked at. -/
theorem settles_first (op : Operator) (function : String) (v : Value) :
    (combined op).Settles function [v] ((number function v).map fun _ => v) := by
  refine settles_one (f := fun v => (number function v).map fun _ => v) (k := id)
    (fun i => ?_) (fun v hv => ?_) v
  · have hdivides : ¬ ((combined op).divides 0 = true ∧ i = 0) := by cases op <;> simp [divides]
    rw [if_neg hdivides]
    exact (congrArg (Except.map Value.int) (exactly_toInt i)).symm
  · cases v <;> first | rfl | cases hv

theorem combine_eq (op : Operator) (function : String) (first : Value) (rest : List Value) :
    combine op function (first :: rest) =
      ((number function first).map fun _ => first) >>= fun acc =>
        rest.foldlM (Library.binary op function) acc := by
  rw [combine]
  cases number function first <;> rfl

/-- A call of an operation that combines its arguments from left to right. -/
theorem settles_combine (op : Operator) (function : String) (first : Value) (rest : List Value) :
    (combined op).Settles function (first :: rest) (combine op function (first :: rest)) := by
  rw [combine_eq]
  -- From the end, so that a step is about the last argument and all that come before it.
  induction rest using List.reverseRecOn with
  | nil =>
    simp only [List.foldlM_nil, bind_pure]
    exact settles_first op function first
  | append_singleton rest v ih =>
    simp only [List.foldlM_append, List.foldlM_cons, List.foldlM_nil, bind_pure, ← bind_assoc]
    exact ih.bind fun acc hacc => judges_binary (List.cons_ne_nil _ _) hacc v

end Arithmetic

/-- What an operation computes from its arguments, if it is arithmetic. -/
inductive Builtin.Computes : Builtin → List Value → Arithmetic → Prop where
  | add (v : Value) (vs : List Value) : Computes .add (v :: vs) (.combined .add)
  | multiply (v : Value) (vs : List Value) : Computes .multiply (v :: vs) (.combined .mul)
  | subtract (v w : Value) (vs : List Value) : Computes .subtract (v :: w :: vs) (.combined .sub)
  | divide (v w : Value) (vs : List Value) : Computes .divide (v :: w :: vs) (.combined .div)
  | negate (v : Value) : Computes .subtract [v] .negative
  | invert (v : Value) : Computes .divide [v] .reciprocal
  | inc (v : Value) : Computes .inc [v] .successor
  | dec (v : Value) : Computes .dec [v] .predecessor
  | abs (v : Value) : Computes .abs [v] .magnitude

theorem Builtin.Computes.settles {op : Builtin} {args : List Value} {a : Arithmetic}
    (h : op.Computes args a) : a.Settles op.name args (op.run args) := by
  cases h with
  | add v vs => exact Arithmetic.settles_combine .add "+" v vs
  | multiply v vs => exact Arithmetic.settles_combine .mul "*" v vs
  | subtract v w vs =>
    rw [Builtin.run, subtract_more]
    exact Arithmetic.settles_combine .sub "-" v (w :: vs)
  | divide v w vs => exact Arithmetic.settles_combine .div "/" v (w :: vs)
  | negate v =>
    refine Arithmetic.settles_one (f := fun v => Library.subtract [v]) (k := fun x => -x)
      (fun _ => rfl) (fun v hv => ?_) v
    rw [subtract_one, hv]
    rfl
  | invert v =>
    refine Arithmetic.settles_one (f := Library.binary .div "/" (.int 1)) (fun i => ?_)
      (fun v hv => binary_eq_float .div rfl (.inr hv)) v
    rw [Library.binary, onInts_eq]
    simp only [Arithmetic.divides, true_and]
    split <;> rfl
  | inc v => exact Arithmetic.settles_one (fun _ => rfl) (fun _ => binary_int_one .add "inc") v
  | dec v => exact Arithmetic.settles_one (fun _ => rfl) (fun _ => binary_int_one .sub "dec") v
  | abs v =>
    refine Arithmetic.settles_one (f := Library.abs) (k := Float.abs)
      (fun _ => rfl) (fun v hv => ?_) v
    rw [abs_eq, hv]
    rfl

/-- A fault is the one of the first argument that offends. Integers give exactly the integer that
they come to, if no step divides by zero or leaves the range, and an integer comes from integers
only. -/
theorem Builtin.run_exact_or_faults {op : Builtin} {args : List Value} {a : Arithmetic}
    (h : op.Computes args a) :
    (∀ f, op.run args = .error f ↔ a.FirstOffence op.name args f) ∧
    (∀ is : List Int64, args = is.map .int →
      ((∃ r : Int64, op.run args = .ok (.int r) ∧ r.toInt = a.exact (is.map Int64.toInt)) ↔
        ∀ earlier i later, is = earlier ++ i :: later →
          ¬ (a.divides earlier.length = true ∧ i = 0) ∧
            InRange (a.exact ((earlier ++ [i]).map Int64.toInt)))) ∧
    ∀ r : Int64, op.run args = .ok (.int r) →
      ∃ is : List Int64, args = is.map .int ∧ r.toInt = a.exact (is.map Int64.toInt) := by
  have hsettles := h.settles
  refine ⟨fun f => ⟨fun hrun => ?_, fun hf => ?_⟩, fun is his => ?_, fun r hrun => ?_⟩
  · rwa [hrun] at hsettles
  · cases hrun : op.run args with
    | ok v =>
      rw [hrun] at hsettles
      exact absurd hsettles.1 hf.not_clean
    | error g =>
      rw [hrun] at hsettles
      rw [Arithmetic.FirstOffence.unique hf hsettles]
  · subst his
    rw [← Arithmetic.clean_ints_iff a op.name]
    constructor
    · rintro ⟨r, hrun, -⟩
      rw [hrun] at hsettles
      exact hsettles.1
    · intro hclean
      cases hrun : op.run (is.map .int) with
      | ok v =>
        rw [hrun] at hsettles
        obtain ⟨r, rfl, hexact⟩ := Arithmetic.carries_ints_iff.1 hsettles.2
        exact ⟨r, rfl, hexact⟩
      | error f =>
        rw [hrun] at hsettles
        exact absurd hclean (Arithmetic.FirstOffence.not_clean hsettles)
  · rw [hrun] at hsettles
    exact Arithmetic.carries_int_iff.1 hsettles.2

/-- The first fault is reported, whatever comes after it. -/
theorem Builtin.run_exact_or_faults_overflow :
    Builtin.divide.run [.int Int64.minValue, .int (-1), .int 0, .nil] = .error (.overflow "/") ∧
      ∃ r : Int64, Builtin.subtract.run [.int 10, .int 12] = .ok (.int r) ∧ r.toInt = -2 := by
  refine ⟨((run_exact_or_faults (.divide _ _ _)).1 _).2 ?_,
    ((run_exact_or_faults (.subtract _ _ _)).2.1 [10, 12] rfl).2 ?_⟩
  · exact ⟨[.int Int64.minValue], .int (-1), [.int 0, .nil], rfl, by decide,
      Arithmetic.clean_singleton.2 (by decide)⟩
  · have hclean : (Arithmetic.combined .sub).Clean "-" ([.int 10] ++ [.int 12]) :=
      Arithmetic.clean_concat.2 ⟨Arithmetic.clean_singleton.2 (by decide), by decide⟩
    exact (Arithmetic.clean_ints_iff _ _ _).1 hclean

end Scriptlet
