import Mathlib
import Scriptlet.Proofs.Node
import Scriptlet.Value.Equality

/-!
What equals itself. A NaN does not, and for that reason neither does a list in which one stands, nor
a tree that mentions such a value. Everything else does.
-/

namespace Scriptlet

/-- A NaN, or a list in which one stands. What a function keeps is not looked at, for functions are
compared by identity. -/
inductive Value.HasNaN : Value → Prop where
  | float {x} (h : x.isNaN = true) : HasNaN (.float x)
  | list {items v} (hv : v ∈ items) (h : HasNaN v) : HasNaN (.list items)

theorem Function.same_self (f : Function) : f.same f = true := by
  cases f <;> exact beq_self_eq_true _

namespace Value

theorem hasNaN_float_iff {x : Float} : (Value.float x).HasNaN ↔ x.isNaN = true := by
  constructor
  · intro h
    cases h with
    | float h => exact h
  · exact .float

theorem hasNaN_list_iff {items : List Value} :
    (Value.list items).HasNaN ↔ ∃ v ∈ items, v.HasNaN := by
  constructor
  · intro h
    cases h with
    | list hv h => exact ⟨_, hv, h⟩
  · rintro ⟨v, hv, h⟩
    exact .list hv h

mutual

theorem beq_self_iff : ∀ v : Value, (v == v) = true ↔ ¬ v.HasNaN
  | .nil => iff_of_true rfl nofun
  | .bool b => iff_of_true (beq_self_eq_true b) nofun
  | .int i => iff_of_true (beq_self_eq_true i) nofun
  | .str s => iff_of_true (beq_self_eq_true s) nofun
  | .function f => iff_of_true f.same_self nofun
  | .float x => by
    change (x == x) = true ↔ _
    rw [Float.beq_self_iff, hasNaN_float_iff, Float.isNaN_eq_decide_eq_nan, decide_eq_true_iff]
  | .list items => by
    change Value.beqAll items items = true ↔ _
    rw [beqAll_self_iff items, hasNaN_list_iff]
    simp

theorem beqAll_self_iff : ∀ vs : List Value, Value.beqAll vs vs = true ↔ ∀ v ∈ vs, ¬ v.HasNaN
  | [] => by simp [Value.beqAll]
  | v :: vs => by
    rw [Value.beqAll, Bool.and_eq_true, List.forall_mem_cons]
    exact and_congr (beq_self_iff v) (beqAll_self_iff vs)

end

end Value

namespace Node

theorem beqAll_self_iff (ns : List Node) :
    Node.beqAll ns ns = true ↔ ∀ n ∈ ns, (n == n) = true := by
  induction ns with
  | nil => simp [Node.beqAll]
  | cons n ns ih =>
    rw [Node.beqAll, Bool.and_eq_true, List.forall_mem_cons, ih]
    rfl

theorem beqOption_self_iff (o : Option Node) :
    Node.beqOption o o = true ↔ ∀ n ∈ o.toList, (n == n) = true := by
  cases o with
  | none => simp [Node.beqOption]
  | some n =>
    rw [Node.beqOption, Option.toList_some, List.forall_mem_singleton]
    rfl

theorem beqBindings_self_iff (bs : List (String × Node)) :
    Node.beqBindings bs bs = true ↔ ∀ n ∈ bs.map (·.2), (n == n) = true := by
  induction bs with
  | nil => simp [Node.beqBindings]
  | cons b bs ih =>
    obtain ⟨x, n⟩ := b
    rw [Node.beqBindings, List.map_cons, List.forall_mem_cons, Bool.and_eq_true, Bool.and_eq_true,
      beq_self_eq_true, ih]
    exact and_congr_left' (and_iff_right rfl)

/-- A node that is no constant equals itself if its parts do. -/
theorem beq_self_iff_parts {n : Node} (hn : ∀ v span, n ≠ .constant v span) :
    (n == n) = true ↔ ∀ m ∈ n.parts, (m == m) = true := by
  change n.beq n = true ↔ _
  cases n with
  | constant v span => exact absurd rfl (hn v span)
  | localName x span | freeName x span => simp [Node.beq, parts]
  | list items span | block items span | allOf items span | anyOf items span
  | nativeCall f items span => simp [Node.beq, parts, beqAll_self_iff]
  | branch cond yes no span =>
    rw [Node.beq, parts, List.forall_mem_cons, List.forall_mem_cons]
    simp only [Bool.and_eq_true, beqOption_self_iff, beq_self_eq_true, and_true, and_assoc]
    rfl
  | bind bindings body span =>
    rw [Node.beq, parts, List.forall_mem_append]
    simp only [Bool.and_eq_true, beqBindings_self_iff, beqAll_self_iff, beq_self_eq_true, and_true]
  | lambda l =>
    cases l with
    | mk params captures body span =>
      simp [Node.beq, Lambda.beq, parts, Lambda.body, beqAll_self_iff]
  | call callee args span =>
    rw [Node.beq, parts, List.forall_mem_cons]
    simp only [Bool.and_eq_true, beqAll_self_iff, beq_self_eq_true, and_true]
    rfl

/-- A tree equals itself unless it mentions a NaN. -/
theorem beq_self_iff (n : Node) : (n == n) = true ↔ ∀ v, n.Mentions v → ¬ v.HasNaN := by
  induction hsize : sizeOf n using Nat.strongRecOn generalizing n with
  | ind size ih =>
    subst hsize
    by_cases hn : ∃ v span, n = .constant v span
    · obtain ⟨v, span, rfl⟩ := hn
      have hbeq : (constant v span == constant v span) = (v == v && span == span) := by
        change (constant v span).beq (constant v span) = _
        rw [Node.beq]
      rw [hbeq, Bool.and_eq_true, and_iff_left (beq_self_eq_true span), Value.beq_self_iff]
      simp [mentions_constant_iff]
    · have hn' : ∀ v span, n ≠ .constant v span := fun v span h => hn ⟨v, span, h⟩
      rw [beq_self_iff_parts hn']
      constructor
      · intro h v hv
        obtain ⟨m, hm, hv⟩ := (mentions_iff_parts hn').1 hv
        exact (ih _ (sizeOf_part hm) m rfl).1 (h m hm) v hv
      · intro h m hm
        exact (ih _ (sizeOf_part hm) m rfl).2 fun v hv => h v (hv.part hm)

end Node

end Scriptlet
