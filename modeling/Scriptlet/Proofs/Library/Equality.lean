import Mathlib.Data.List.Chain
import Scriptlet.Library.Builtin
import Scriptlet.Proofs.Value.Equality
import Scriptlet.Proofs.Value.Rounding

/-!
Equality of many values, of which only neighbours are compared. It is symmetric, and where no NaN is
among the values also reflexive. But an integer equals the float to which it is rounded, so that one
float may equal two different integers, if these are large. Where none does, neighbours are enough,
and the order of the values does not matter.
-/

namespace Scriptlet

namespace Function

theorem same_comm (f g : Function) : f.same g = g.same f := by
  cases f <;> cases g <;> first | rfl | exact BEq.comm

theorem same_trans {f g h : Function} (hfg : f.same g = true) (hgh : g.same h = true) :
    f.same h = true := by
  cases f <;> cases g <;> first | cases hfg | skip
  all_goals cases h <;> first | cases hgh | exact BEq.trans hfg hgh

end Function

namespace Value

/-- The value is the other one, or stands in an item of it. -/
inductive In (w : Value) : Value → Prop where
  | self : In w w
  | item {items v} (hv : v ∈ items) (h : In w v) : In w (.list items)

theorem In.trans {u v w : Value} (h : u.In v) (h' : v.In w) : u.In w := by
  induction h' with
  | self => exact h
  | item hv _ ih => exact .item hv ih

theorem in_atom_iff {v w : Value} (hw : ∀ items, w ≠ .list items) : v.In w ↔ v = w := by
  constructor
  · intro h
    cases h with
    | self => rfl
    | item => exact absurd rfl (hw _)
  · rintro rfl
    exact .self

/-- The value stands in one of the values. -/
def Among (w : Value) (vs : List Value) : Prop := ∃ v ∈ vs, w.In v

theorem Among.of_mem {v : Value} {vs : List Value} (hv : v ∈ vs) : v.Among vs := ⟨v, hv, .self⟩

theorem Among.item {items vs : List Value} {v : Value} (h : (Value.list items).Among vs)
    (hv : v ∈ items) : v.Among vs := by
  obtain ⟨w, hw, hin⟩ := h
  exact ⟨w, hw, In.trans (.item hv .self) hin⟩

theorem Among.perm {v : Value} {vs ws : List Value} (h : vs.Perm ws) : v.Among vs ↔ v.Among ws := by
  simp only [Among, h.mem_iff]

/-- Among the values is a float that equals two different integers among them. -/
def Ambiguous (vs : List Value) : Prop :=
  ∃ x i j, (Value.float x).Among vs ∧ (Value.int i).Among vs ∧ (Value.int j).Among vs ∧
    (Float.ofInt i.toInt == x) = true ∧ (Float.ofInt j.toInt == x) = true ∧ i ≠ j

theorem ambiguous_perm {vs ws : List Value} (h : vs.Perm ws) : Ambiguous vs ↔ Ambiguous ws := by
  simp only [Ambiguous, Among.perm h]

/-- Integers that need no rounding have floats of their own. -/
theorem not_ambiguous {vs : List Value}
    (h : ∀ i, (Value.int i).Among vs → i.toInt.natAbs ≤ 2 ^ 53) : ¬ Ambiguous vs := by
  rintro ⟨x, i, j, -, hi, hj, hix, hjx, hne⟩
  have hsame : i.toInt = j.toInt :=
    Rounding.ofInt_injOn (h i hi) (h j hj) (BEq.trans hix (BEq.symm hjx))
  exact hne (Int64.toInt_inj.1 hsame)

section Laws

mutual

theorem alike_comm : ∀ a b : Value, a.alike b = b.alike a
  | .list as, b => by
    cases b with
    | list bs => exact alikeAll_comm as bs
    | _ => rfl
  | .nil, b => by cases b <;> rfl
  | .bool _, b | .int _, b | .float _, b | .str _, b => by
    cases b <;> first | rfl | exact BEq.comm
  | .function f, b => by
    cases b with
    | function g => exact f.same_comm g
    | _ => rfl

theorem alikeAll_comm : ∀ as bs : List Value, alikeAll as bs = alikeAll bs as
  | [], bs => by cases bs <;> rfl
  | a :: as, bs => by
    cases bs with
    | nil => rfl
    | cons b bs => exact congrArg₂ and (alike_comm a b) (alikeAll_comm as bs)

end

mutual

theorem alike_self : ∀ {v : Value}, ¬ v.HasNaN → v.alike v = true
  | .nil, _ => rfl
  | .bool b, _ => beq_self_eq_true b
  | .int i, _ => beq_self_eq_true i
  | .str s, _ => beq_self_eq_true s
  | .function f, _ => f.same_self
  | .float x, h => by
    rw [hasNaN_float_iff, Float.isNaN_eq_decide_eq_nan, decide_eq_true_iff] at h
    exact Float.beq_self_iff.2 h
  | .list items, h => by
    rw [hasNaN_list_iff] at h
    exact alikeAll_self fun v hv hnan => h ⟨v, hv, hnan⟩

theorem alikeAll_self : ∀ {vs : List Value}, (∀ v ∈ vs, ¬ v.HasNaN) → alikeAll vs vs = true
  | [], _ => rfl
  | v :: vs, h => by
    obtain ⟨hv, hvs⟩ := List.forall_mem_cons.1 h
    exact (Bool.and_eq_true _ _).mpr ⟨alike_self hv, alikeAll_self hvs⟩

end

variable {vs : List Value}

mutual

/-- Only a float between two integers can keep them apart. -/
theorem alike_trans (hclear : ¬ Ambiguous vs) : ∀ {a b c : Value}, a.Among vs → b.Among vs →
    c.Among vs → a.alike b = true → b.alike c = true → a.alike c = true
  | .nil, b, c, _, _, _, h, h' => by
    cases b with
    | nil => exact h'
    | _ => cases h
  | .bool x, b, c, _, _, _, h, h' => by
    cases b with
    | bool y =>
      obtain rfl : x = y := beq_iff_eq.1 h
      exact h'
    | _ => cases h
  | .str x, b, c, _, _, _, h, h' => by
    cases b with
    | str y =>
      obtain rfl : x = y := beq_iff_eq.1 h
      exact h'
    | _ => cases h
  | .int i, b, c, ha, hb, hc, h, h' => by
    cases b with
    | int j =>
      obtain rfl : i = j := beq_iff_eq.1 h
      exact h'
    | float x =>
      cases c with
      | float y => exact BEq.trans h h'
      -- Two integers with a float between them.
      | int j =>
        by_contra hne
        refine hclear ⟨x, i, j, hb, ha, hc, h, h', ?_⟩
        rintro rfl
        exact hne (beq_self_eq_true i)
      | _ => cases h'
    | _ => cases h
  | .float x, b, c, _, _, _, h, h' => by
    cases b with
    | float y =>
      cases c with
      | float z => exact BEq.trans h h'
      | int j => exact BEq.trans h' (BEq.symm h)
      | _ => cases h'
    | int i =>
      cases c with
      | float z => exact BEq.trans (BEq.symm h) h'
      | int j =>
        obtain rfl : i = j := beq_iff_eq.1 h'
        exact h
      | _ => cases h'
    | _ => cases h
  | .function f, b, c, _, _, _, h, h' => by
    cases b with
    | function g =>
      cases c with
      | function k => exact Function.same_trans h h'
      | _ => cases h'
    | _ => cases h
  | .list as, b, c, ha, hb, hc, h, h' => by
    cases b with
    | list bs =>
      cases c with
      | list cs =>
        exact alikeAll_trans hclear (fun _ => ha.item) (fun _ => hb.item) (fun _ => hc.item) h h'
      | _ => cases h'
    | _ => cases h

theorem alikeAll_trans (hclear : ¬ Ambiguous vs) : ∀ {as bs cs : List Value},
    (∀ v ∈ as, v.Among vs) → (∀ v ∈ bs, v.Among vs) → (∀ v ∈ cs, v.Among vs) →
    alikeAll as bs = true → alikeAll bs cs = true → alikeAll as cs = true
  | [], bs, _, _, _, _, h, h' => by
    cases bs with
    | nil => exact h'
    | cons b bs => cases h
  | a :: as, bs, cs, ha, hb, hc, h, h' => by
    cases bs with
    | nil => cases h
    | cons b bs =>
      cases cs with
      | nil => cases h'
      | cons c cs =>
        obtain ⟨ha, has⟩ := List.forall_mem_cons.1 ha
        obtain ⟨hb, hbs⟩ := List.forall_mem_cons.1 hb
        obtain ⟨hc, hcs⟩ := List.forall_mem_cons.1 hc
        obtain ⟨hfirst, hrest⟩ := (Bool.and_eq_true _ _).mp h
        obtain ⟨hfirst', hrest'⟩ := (Bool.and_eq_true _ _).mp h'
        exact (Bool.and_eq_true _ _).mpr ⟨alike_trans hclear ha hb hc hfirst hfirst',
          alikeAll_trans hclear has hbs hcs hrest hrest'⟩

end

end Laws

end Value

namespace Library

variable {vs : List Value}

theorem allAlike_iff_isChain :
    allAlike vs = true ↔ vs.IsChain fun v w => v.alike w = true := by
  induction vs with
  | nil => exact iff_of_true rfl .nil
  | cons v vs ih =>
    cases vs with
    | nil => exact iff_of_true rfl (.singleton v)
    | cons w vs => rw [allAlike, Bool.and_eq_true, List.isChain_cons_cons, ih]

theorem allAlike_reverse (vs : List Value) : allAlike vs.reverse = allAlike vs := by
  rw [Bool.eq_iff_iff, allAlike_iff_isChain, allAlike_iff_isChain, List.isChain_reverse]
  simp only [Value.alike_comm]

theorem allAlike_of_forall (h : ∀ v ∈ vs, ∀ w ∈ vs, v.alike w = true) : allAlike vs = true := by
  rw [allAlike_iff_isChain]
  exact (List.pairwise_of_forall_mem_list h).isChain

/-- Neighbours are enough where likeness is passed on. -/
theorem forall_of_allAlike (hnan : ∀ v ∈ vs, ¬ v.HasNaN) (hclear : ¬ Value.Ambiguous vs)
    (h : allAlike vs = true) : ∀ v ∈ vs, ∀ w ∈ vs, v.alike w = true := by
  let R : Value → Value → Prop := fun v w => v.Among vs ∧ w.Among vs ∧ v.alike w = true
  have hsymm : Std.Symm R := ⟨fun v w ⟨hv, hw, h⟩ => ⟨hw, hv, Value.alike_comm v w ▸ h⟩⟩
  have htrans : Trans R R R :=
    ⟨fun ⟨ha, hb, h⟩ ⟨_, hc, h'⟩ => ⟨ha, hc, Value.alike_trans hclear ha hb hc h h'⟩⟩
  have hself : ∀ v ∈ vs, R v v := fun v hv => ⟨.of_mem hv, .of_mem hv, Value.alike_self (hnan v hv)⟩
  have hchain : vs.IsChain R := (allAlike_iff_isChain.1 h).imp_of_mem_imp
    fun v w hv hw hlike => ⟨.of_mem hv, .of_mem hw, hlike⟩
  exact fun v hv w hw => (hchain.pairwise.forall_of_forall hself hv hw).2.2

theorem allAlike_iff_forall (hnan : ∀ v ∈ vs, ¬ v.HasNaN) (hclear : ¬ Value.Ambiguous vs) :
    allAlike vs = true ↔ ∀ v ∈ vs, ∀ w ∈ vs, v.alike w = true :=
  ⟨forall_of_allAlike hnan hclear, allAlike_of_forall⟩

/-- Such values can be put in any order. -/
theorem allAlike_perm {vs ws : List Value} (hnan : ∀ v ∈ vs, ¬ v.HasNaN)
    (hclear : ¬ Value.Ambiguous vs) (h : vs.Perm ws) : allAlike ws = allAlike vs := by
  have hnan' : ∀ v ∈ ws, ¬ v.HasNaN := fun v hv => hnan v (h.mem_iff.2 hv)
  have hclear' : ¬ Value.Ambiguous ws := mt (Value.ambiguous_perm h).2 hclear
  rw [Bool.eq_iff_iff, allAlike_iff_forall hnan hclear, allAlike_iff_forall hnan' hclear']
  simp only [h.mem_iff]

/-- A float between two different integers hides that they differ. -/
theorem allAlike_between {x : Float} {i j : Int64} (hi : (Float.ofInt i.toInt == x) = true)
    (hj : (Float.ofInt j.toInt == x) = true) (hne : i ≠ j) :
    allAlike [.int i, .float x, .int j] = true ∧ allAlike [.int i, .int j, .float x] = false := by
  constructor
  · rw [allAlike_iff_isChain, List.isChain_cons_cons, List.isChain_cons_cons]
    exact ⟨hi, hj, .singleton _⟩
  · have hints : (Value.int i).alike (.int j) = false := beq_false_of_ne hne
    exact Bool.and_eq_false_iff.2 (.inl hints)

end Library

theorem Builtin.run_equal (vs : List Value) :
    Builtin.equal.run vs = .ok (.bool (Library.allAlike vs)) :=
  rfl

theorem Builtin.run_notEqual (vs : List Value) :
    Builtin.notEqual.run vs = .ok (.bool (!Library.allAlike vs)) :=
  rfl

/-- Values without a NaN are called equal where every two of them are alike, and in any order,
unless a float among them is alike to two different integers, as it can be only to integers beyond
two to the 53rd. With such a float between them the integers pass for equal, and next to each other
they do not. In the reverse order the answer is always the same. -/
theorem Builtin.equal_run_iff {args : List Value} (hnan : ∀ v ∈ args, ¬ v.HasNaN) :
    (¬ Value.Ambiguous args →
      (Builtin.equal.run args = .ok (.bool true) ↔ ∀ v ∈ args, ∀ w ∈ args, v.alike w = true) ∧
      ∀ args', args.Perm args' → Builtin.equal.run args' = Builtin.equal.run args ∧
        Builtin.notEqual.run args' = Builtin.notEqual.run args) ∧
    ((∀ i, (Value.int i).Among args → i.toInt.natAbs ≤ 2 ^ 53) → ¬ Value.Ambiguous args) ∧
    ((∀ v ∈ args, ∀ w ∈ args, v.alike w = true) → Builtin.equal.run args = .ok (.bool true)) ∧
    Builtin.equal.run args.reverse = Builtin.equal.run args ∧
    ∀ x i j, (Float.ofInt i.toInt == x) = true → (Float.ofInt j.toInt == x) = true → i ≠ j →
      Builtin.equal.run [.int i, .float x, .int j] = .ok (.bool true) ∧
        Builtin.equal.run [.int i, .int j, .float x] = .ok (.bool false) := by
  have htrue : ∀ vs, Builtin.equal.run vs = .ok (.bool true) ↔ Library.allAlike vs = true := by
    intro vs
    rw [run_equal, Except.ok.injEq, Value.bool.injEq]
  refine ⟨fun hclear => ⟨?_, fun args' h => ?_⟩, Value.not_ambiguous, fun h => ?_, ?_,
    fun x i j hi hj hne => ?_⟩
  · exact (htrue args).trans (Library.allAlike_iff_forall hnan hclear)
  · rw [run_equal, run_equal, run_notEqual, run_notEqual, Library.allAlike_perm hnan hclear h]
    exact ⟨rfl, rfl⟩
  · exact (htrue args).2 (Library.allAlike_of_forall h)
  · rw [run_equal, run_equal, Library.allAlike_reverse]
  · obtain ⟨hbetween, hnext⟩ := Library.allAlike_between hi hj hne
    rw [run_equal, run_equal, hbetween, hnext]
    exact ⟨rfl, rfl⟩

/-- A float that is alike to one of two integers. -/
theorem Builtin.equal_run_iff_mixed :
    Builtin.notEqual.run [.int 2, .int 3, .float 2] = .ok (.bool true) ∧
      Builtin.notEqual.run [.int 2, .float 2, .int 3] = .ok (.bool true) := by
  have hnan : ∀ v ∈ [Value.int 2, .int 3, .float 2], ¬ v.HasNaN := by
    have hfloat : ¬ (Value.float 2).HasNaN := Value.hasNaN_float_iff.not.2
      (Bool.eq_false_iff.1 (Decimal.isNaN_ofScientific 2 false 0))
    simpa using ⟨nofun, nofun, hfloat⟩
  have hclear : ¬ Value.Ambiguous [.int 2, .int 3, .float 2] := by
    refine (equal_run_iff hnan).2.1 fun i hi => ?_
    obtain rfl | rfl : i = 2 ∨ i = 3 := by simpa [Value.Among, Value.in_atom_iff] using hi
    · decide
    · decide
  have hrun : Builtin.notEqual.run [.int 2, .int 3, .float 2] = .ok (.bool true) := rfl
  have hperm : [Value.int 2, .int 3, .float 2].Perm [.int 2, .float 2, .int 3] :=
    .cons _ (.swap _ _ _)
  exact ⟨hrun, (((equal_run_iff hnan).1 hclear).2 _ hperm).2.trans hrun⟩

/-- The second value equals the first after rounding, and the third as well, but they differ. -/
theorem Builtin.equal_run_rounded :
    Builtin.equal.run [.int 9007199254740993, .float 9007199254740992, .int 9007199254740992] =
        .ok (.bool true) ∧
      (Value.int 9007199254740993).alike (.int 9007199254740992) = false ∧
      Builtin.equal.run [.int 9007199254740993, .int 9007199254740992, .float 9007199254740992] =
        .ok (.bool false) ∧
      ¬ (Value.float 9007199254740992).HasNaN := by
  have hrounded : Library.allAlike [.int 9007199254740993, .float 9007199254740992,
      .int 9007199254740992] = true := by decide +kernel
  have hnumber : (9007199254740992 : Float).isNaN = false :=
    Decimal.isNaN_ofScientific 9007199254740992 false 0
  refine ⟨?_, by decide, rfl, Value.hasNaN_float_iff.not.2 (Bool.eq_false_iff.1 hnumber)⟩
  rw [run_equal, hrounded]

end Scriptlet
