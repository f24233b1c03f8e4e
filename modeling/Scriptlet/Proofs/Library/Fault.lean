import Scriptlet.Library.Builtin

/-!
Faults of the standard library. An operation that is given a number of arguments that it takes fails
only because of the arguments themselves: it never runs out of them. With another number of them it
says so, if it fails at all. None of its faults is only a message.
-/

namespace Scriptlet

/-- The fault lies in one of the arguments, or in what they come to. -/
def Fault.ofArguments : Fault → Bool
  | zeroDivisor | overflow _ | wrongType .. | badIndex .. => true
  | _ => false

namespace Library

/-- If it fails, the cause is not only a message. -/
def Explained {α : Type} (x : Except Fault α) : Prop := ∀ message, x ≠ .error (.other message)

/-- If it fails, the cause has the property. -/
def Raises (P : Fault → Prop) {α : Type} (x : Except Fault α) : Prop := ∀ e, x = .error e → P e

namespace Raises

variable {P Q : Fault → Prop} {α β : Type}

theorem ok (a : α) : Raises P (.ok a) := fun _ h => nomatch h

theorem error {e : Fault} (h : P e) : Raises P (.error e : Except Fault α) := by
  intro e' he
  cases he
  exact h

theorem mono {x : Except Fault α} (h : Raises P x) (hP : ∀ e, P e → Q e) : Raises Q x :=
  fun e he => hP e (h e he)

theorem bind {x : Except Fault α} {f : α → Except Fault β} (h : Raises P x)
    (hf : ∀ a, Raises P (f a)) : Raises P (x >>= f) := by
  cases x with
  | ok a => exact hf a
  | error e => exact error (h e rfl)

theorem map {x : Except Fault α} {f : α → β} (h : Raises P x) : Raises P (x.map f) := by
  cases x with
  | ok a => exact ok _
  | error e => exact error (h e rfl)

theorem foldlM {f : β → α → Except Fault β} (hf : ∀ b a, Raises P (f b a)) (as : List α) (b : β) :
    Raises P (as.foldlM f b) := by
  induction as generalizing b with
  | nil => exact ok b
  | cons a as ih =>
    rw [List.foldlM_cons]
    exact (hf b a).bind ih

theorem mapM {f : α → Except Fault β} (hf : ∀ a, Raises P (f a)) (as : List α) :
    Raises P (as.mapM f) := by
  induction as with
  | nil => exact ok []
  | cons a as ih =>
    rw [List.mapM_cons]
    exact (hf a).bind fun _ => ih.bind fun _ => ok _

end Raises

/-- If it fails, the fault lies in the arguments. -/
abbrev Grounded {α : Type} (x : Except Fault α) : Prop := Raises (fun e => e.ofArguments = true) x

variable {function : String}

theorem number_grounded (v : Value) : Grounded (number function v) := by
  unfold number
  split
  · exact .ok _
  · exact .error rfl

theorem integer_grounded (v : Value) : Grounded (integer function v) := by
  unfold integer
  split
  · exact .ok _
  · exact .error rfl

theorem text_grounded (v : Value) : Grounded (text function v) := by
  unfold text
  split
  · exact .ok _
  · exact .error rfl

theorem items_grounded (v : Value) : Grounded (items function v) := by
  unfold items
  split
  · exact .ok _
  · exact .ok _
  · exact .error rfl

theorem exactly_grounded (i : Int) : Grounded (exactly function i) := by
  unfold exactly
  split
  · exact .ok _
  · exact .error rfl

theorem onInts_grounded (op : Operator) (i j : Int64) : Grounded (op.onInts function i j) := by
  cases op with
  | add | sub | mul => exact exactly_grounded _
  | div =>
    change Grounded (if j = 0 then .error .zeroDivisor else exactly function _)
    split
    · exact .error rfl
    · exact exactly_grounded _

theorem binary_grounded (op : Operator) (a b : Value) : Grounded (binary op function a b) := by
  unfold binary
  split
  · exact (onInts_grounded op _ _).map
  · exact (number_grounded a).bind fun _ => (number_grounded b).bind fun _ => .ok _

theorem combine_grounded (op : Operator) (a : Value) (args : List Value) :
    Grounded (combine op function (a :: args)) :=
  (number_grounded a).bind fun _ => .foldlM (fun _ _ => binary_grounded op _ _) args a

theorem add_grounded (args : List Value) : Grounded (add args) := by
  cases args with
  | nil => exact .ok _
  | cons a args => exact combine_grounded .add a args

theorem multiply_grounded (args : List Value) : Grounded (multiply args) := by
  cases args with
  | nil => exact .ok _
  | cons a args => exact combine_grounded .mul a args

theorem subtract_grounded (a : Value) (args : List Value) : Grounded (subtract (a :: args)) := by
  unfold subtract
  split
  · exact (exactly_grounded _).map
  · exact (number_grounded _).map
  · exact combine_grounded .sub a args

theorem divide_grounded (a : Value) (args : List Value) : Grounded (divide (a :: args)) := by
  unfold divide
  split
  · exact binary_grounded .div _ _
  · exact combine_grounded .div a args

theorem dividend_grounded (a b : Value) : Grounded (dividend function a b) := by
  refine (integer_grounded a).bind fun _ => (integer_grounded b).bind fun _ => ?_
  split
  · exact .error rfl
  · exact .ok _

theorem quot_grounded (a b : Value) : Grounded (quot a b) :=
  (dividend_grounded a b).bind fun _ => (exactly_grounded _).map

theorem remainder_grounded (i j : Int64) : Grounded (remainder function i j) :=
  (exactly_grounded _).bind fun _ => .ok _

theorem rem_grounded (a b : Value) : Grounded (rem a b) :=
  (dividend_grounded a b).bind fun _ => (remainder_grounded _ _).map

theorem mod_grounded (a b : Value) : Grounded (mod a b) := by
  refine (dividend_grounded a b).bind fun _ => (remainder_grounded _ _).bind fun _ => ?_
  split <;> exact .ok _

theorem abs_grounded (v : Value) : Grounded (abs v) := by
  unfold abs
  split
  · exact (exactly_grounded _).map
  · exact (number_grounded _).map

theorem order_grounded (a b : Value) : Grounded (order function a b) := by
  unfold order
  split
  · exact .ok _
  · exact .ok _
  · exact (number_grounded a).bind fun _ => (number_grounded b).bind fun _ => .ok _

theorem compares_grounded (c : Comparison) (a b : Value) : Grounded (compares c function a b) := by
  refine (order_grounded a b).bind fun o => ?_
  cases o <;> exact .ok _

theorem best_grounded (c : Comparison) (a : Value) (args : List Value) :
    Grounded (best c function (a :: args)) := by
  refine (number_grounded a).bind fun _ => .foldlM (fun v w => ?_) args a
  refine (number_grounded w).bind fun _ => (compares_grounded c w v).bind fun found => ?_
  cases found <;> exact .ok _

theorem ordered_grounded (c : Comparison) (args : List Value) :
    Grounded (ordered c function args) := by
  fun_induction ordered c function args with
  | case1 a b rest ih =>
    refine (compares_grounded c a b).bind fun found => ?_
    cases found with
    | true => exact ih
    | false => exact .ok _
  | case2 => exact .ok _

theorem chain_grounded (c : Comparison) (args : List Value) :
    Grounded (chain c function args) := by
  unfold chain
  split
  · split
    · exact .ok _
    · exact .error rfl
  · exact (ordered_grounded c _).map

theorem count_grounded (v : Value) : Grounded (count v) := by
  simp only [count]
  split
  · exact (Raises.ok _).bind fun _ => (exactly_grounded _).map
  · exact (items_grounded v).map.bind fun _ => (exactly_grounded _).map

theorem nth_grounded (v index : Value) : Grounded (nth v index) := by
  refine (items_grounded v).bind fun _ => (integer_grounded index).bind fun _ => ?_
  split
  · exact .ok _
  · exact .error rfl

theorem isEmpty_grounded (v : Value) : Grounded (isEmpty v) := by
  unfold isEmpty
  split
  · exact .ok _
  · exact .ok _
  · exact .ok _
  · exact .error rfl

end Library

namespace Builtin

open Library

/-- A fault of an operation: it lies in the arguments, or they are too few or too many. -/
def Blames (op : Builtin) (args : List Value) (e : Fault) : Prop :=
  e.ofArguments = true ∨ (op.arity.accepts args.length = false ∧ e = op.miscalled args)

theorem blames_of_grounded {op : Builtin} {args : List Value} {x : Outcome} (h : Grounded x) :
    Raises (op.Blames args) x := h.mono fun _ => .inl

theorem unary_blames {op : Builtin} (hop : op.arity = .exactly 1) {f : Value → Outcome}
    (hf : ∀ v, Grounded (f v)) (args : List Value) : Raises (op.Blames args) (op.unary f args) := by
  unfold unary
  split
  · exact blames_of_grounded (hf _)
  · next hcount =>
    refine .error (.inr ⟨?_, rfl⟩)
    rw [hop, ← Bool.not_eq_true, Arity.accepts_exactly, List.length_eq_one_iff]
    rintro ⟨v, rfl⟩
    exact hcount v rfl

theorem binary_blames {op : Builtin} (hop : op.arity = .exactly 2) {f : Value → Value → Outcome}
    (hf : ∀ v w, Grounded (f v w)) (args : List Value) :
    Raises (op.Blames args) (op.binary f args) := by
  unfold binary
  split
  · exact blames_of_grounded (hf _ _)
  · next hcount =>
    refine .error (.inr ⟨?_, rfl⟩)
    rw [hop, ← Bool.not_eq_true, Arity.accepts_exactly]
    intro htwo
    match args, htwo with
    | [v, w], _ => exact hcount v w rfl

/-- An operation that needs an argument. -/
theorem some_blames {op : Builtin} {f : List Value → Outcome} (hf : ∀ v vs, Grounded (f (v :: vs)))
    (hop : op.arity = .atLeast 1) (hnil : f [] = .error (op.miscalled [])) (args : List Value) :
    Raises (op.Blames args) (f args) := by
  cases args with
  | nil =>
    rw [hnil]
    refine .error (.inr ⟨?_, rfl⟩)
    rw [hop]
    rfl
  | cons v vs => exact blames_of_grounded (hf v vs)

theorem run_blames (op : Builtin) (args : List Value) : Raises (op.Blames args) (op.run args) := by
  cases op with
  | add => exact blames_of_grounded (add_grounded args)
  | multiply => exact blames_of_grounded (multiply_grounded args)
  | subtract => exact some_blames subtract_grounded rfl rfl args
  | divide => exact some_blames divide_grounded rfl rfl args
  | quot => exact binary_blames rfl quot_grounded args
  | rem => exact binary_blames rfl rem_grounded args
  | mod => exact binary_blames rfl mod_grounded args
  | inc | dec => exact unary_blames rfl (fun _ => Library.binary_grounded _ _ _) args
  | abs => exact unary_blames rfl abs_grounded args
  | min | max => exact some_blames (best_grounded _) rfl rfl args
  | equal | notEqual | list => exact .ok _
  | less | greater | atMost | atLeast => exact blames_of_grounded (chain_grounded _ args)
  | not | isNil | isNumber | isString => exact unary_blames rfl (fun _ => .ok _) args
  | isZero => exact unary_blames rfl (fun v => (number_grounded v).map) args
  | isEmpty => exact unary_blames rfl isEmpty_grounded args
  | str => exact .ok _
  | upperCase | lowerCase => exact unary_blames rfl (fun v => (text_grounded v).map) args
  | count => exact unary_blames rfl count_grounded args
  | first | rest => exact unary_blames rfl (fun v => (items_grounded v).map) args
  | nth => exact binary_blames rfl nth_grounded args
  | conj => exact some_blames (fun v _ => (items_grounded v).map) rfl rfl args
  | concat => exact blames_of_grounded (.map (.mapM items_grounded args))

/-- With as many arguments as it takes, an operation never runs out of them. -/
theorem run_grounded {op : Builtin} {args : List Value}
    (h : op.arity.accepts args.length = true) : Grounded (op.run args) := by
  intro e he
  rcases run_blames op args e he with hground | ⟨hcount, -⟩
  · exact hground
  · rw [h] at hcount
    cases hcount

/-- An operation that fails says what is wrong. -/
theorem run_explained (op : Builtin) (args : List Value) : Explained (op.run args) := by
  intro message h
  rcases run_blames op args _ h with hground | ⟨-, hcount⟩
  · cases hground
  · cases hcount

end Builtin

end Scriptlet
