import Scriptlet.Value.Basic

/-!
The compiled tree. A node in scope reads only names that it can count on: inputs, which come from the
binding, and held names, which the running function has in its scopes. A compiled `fn` starts with
no inputs at all, and holds its parameters and captures only.
-/

namespace Scriptlet

mutual

/-- Every name that evaluating the node can read is an input or is held, and no name is declared
twice. -/
inductive Node.Scoped : (inputs held : List String) → Node → Prop where
  | constant {I L v span} : Scoped I L (.constant v span)
  | localName {I L x span} (h : x ∈ L) : Scoped I L (.localName x span)
  | freeName {I L x span} (h : x ∈ I) : Scoped I L (.freeName x span)
  | list {I L items span} (h : ∀ n ∈ items, Scoped I L n) : Scoped I L (.list items span)
  | branch {I L cond yes no span} (hcond : Scoped I L cond) (hyes : Scoped I L yes)
      (hno : ∀ n, no = some n → Scoped I L n) : Scoped I L (.branch cond yes no span)
  | block {I L nodes span} (h : ∀ n ∈ nodes, Scoped I L n) : Scoped I L (.block nodes span)
  | bind {I L bindings nodes span} (hnames : (bindings.map (·.1)).Nodup)
      (h : ScopedBindings I L bindings nodes) : Scoped I L (.bind bindings nodes span)
  | lambda {I L params captures nodes span} (hparams : params.Nodup)
      (hsorted : captures.Pairwise (· < ·)) (hseen : ∀ x ∈ captures, x ∈ L ∨ x ∈ I)
      (h : ∀ n ∈ nodes, Scoped [] (params ++ captures) n) :
      Scoped I L (.lambda (.mk params captures nodes span))
  | allOf {I L items span} (h : ∀ n ∈ items, Scoped I L n) : Scoped I L (.allOf items span)
  | anyOf {I L items span} (h : ∀ n ∈ items, Scoped I L n) : Scoped I L (.anyOf items span)
  | nativeCall {I L f args span} (h : ∀ n ∈ args, Scoped I L n) :
      Scoped I L (.nativeCall f args span)
  | call {I L callee args span} (hcallee : Scoped I L callee) (h : ∀ n ∈ args, Scoped I L n) :
      Scoped I L (.call callee args span)

/-- The values of a `let` and then its body, each in scope of the names before it. -/
inductive Node.ScopedBindings :
    (inputs held : List String) → List (String × Node) → List Node → Prop where
  | nil {I L nodes} (h : ∀ n ∈ nodes, Node.Scoped I L n) : ScopedBindings I L [] nodes
  | cons {I L x n bindings nodes} (hn : Node.Scoped I L n)
      (h : ScopedBindings I (x :: L) bindings nodes) : ScopedBindings I L ((x, n) :: bindings) nodes

end

/-- A compiled `fn` that reads nothing but its parameters and its captures. -/
structure Lambda.Closed (l : Lambda) : Prop where
  params : l.params.Nodup
  captures : l.captures.Pairwise (· < ·)
  body : ∀ n ∈ l.body, n.Scoped [] (l.params ++ l.captures)

theorem Lambda.Closed.nodup_captures {l : Lambda} (h : l.Closed) : l.captures.Nodup := by
  refine h.captures.imp ?_
  rintro a _ hlt rfl
  exact String.lt_irrefl a hlt

namespace Node

/-- The nodes that stand directly in a node. Those of a `fn` are the nodes of its body. -/
def parts : Node → List Node
  | constant .. | localName .. | freeName .. => []
  | list items _ | allOf items _ | anyOf items _ => items
  | branch cond yes no _ => cond :: yes :: no.toList
  | block nodes _ => nodes
  | bind bindings nodes _ => bindings.map (·.2) ++ nodes
  | lambda l => l.body
  | nativeCall _ args _ => args
  | call callee args _ => callee :: args

/-- The node stands somewhere in a tree. -/
inductive Within (m : Node) : Node → Prop where
  | self : Within m m
  | part {n k} (hk : k ∈ n.parts) (h : Within m k) : Within m n

/-- The value is a constant of the tree. -/
def Mentions (n : Node) (v : Value) : Prop := ∃ span, (constant v span).Within n

theorem Mentions.self {v : Value} {span : Span} : (constant v span).Mentions v := ⟨span, .self⟩

theorem Mentions.part {n m : Node} {v : Value} (hm : m ∈ n.parts) (h : m.Mentions v) :
    n.Mentions v :=
  ⟨h.choose, .part hm h.choose_spec⟩

theorem Within.mentions {n m : Node} {v : Value} (hm : m.Within n) (h : m.Mentions v) :
    n.Mentions v := by
  induction hm with
  | self => exact h
  | part hk _ ih => exact ih.part hk

theorem mentions_iff_parts {n : Node} (hn : ∀ v span, n ≠ .constant v span) {v : Value} :
    n.Mentions v ↔ ∃ m ∈ n.parts, m.Mentions v := by
  constructor
  · rintro ⟨span, h⟩
    cases h with
    | self => exact absurd rfl (hn v span)
    | part hm h => exact ⟨_, hm, span, h⟩
  · rintro ⟨m, hm, h⟩
    exact h.part hm

theorem mentions_constant_iff {v w : Value} {span : Span} :
    (constant v span).Mentions w ↔ w = v := by
  constructor
  · rintro ⟨_, h⟩
    cases h with
    | self => rfl
    | part hm => cases hm
  · rintro rfl
    exact .self

theorem ScopedBindings.part {I L : List String} {bindings : List (String × Node)}
    {nodes : List Node} {m : Node} (h : ScopedBindings I L bindings nodes)
    (hm : m ∈ bindings.map (·.2) ++ nodes) : ∃ L', m.Scoped I L' := by
  induction bindings generalizing L with
  | nil =>
    cases h with
    | nil h => exact ⟨L, h m hm⟩
  | cons p bindings ih =>
    cases h with
    | cons hn h =>
      rcases List.mem_cons.1 hm with rfl | hm
      · exact ⟨L, hn⟩
      · exact ih h hm

/-- The parts of a node in scope are in scope, and have no more inputs than the node. -/
theorem Scoped.part {I L : List String} {n m : Node} (h : n.Scoped I L) (hm : m ∈ n.parts) :
    ∃ I' ⊆ I, ∃ L', m.Scoped I' L' := by
  have hI : I ⊆ I := List.Subset.refl I
  cases h with
  | constant | localName | freeName => cases hm
  | list h | block h | allOf h | anyOf h | nativeCall h => exact ⟨I, hI, L, h m hm⟩
  | branch hcond hyes hno =>
    rcases List.mem_cons.1 hm with rfl | hm
    · exact ⟨I, hI, L, hcond⟩
    · rcases List.mem_cons.1 hm with rfl | hm
      · exact ⟨I, hI, L, hyes⟩
      · exact ⟨I, hI, L, hno m (Option.mem_toList.1 hm)⟩
  | bind _ h => exact ⟨I, hI, h.part hm⟩
  | lambda _ _ _ h => exact ⟨[], List.nil_subset I, _, h m hm⟩
  | call hcallee h =>
    rcases List.mem_cons.1 hm with rfl | hm
    · exact ⟨I, hI, L, hcallee⟩
    · exact ⟨I, hI, L, h m hm⟩

/-- Every `fn` in a tree that is in scope is closed. -/
theorem Scoped.closed {I L : List String} {n : Node} {l : Lambda} (h : n.Scoped I L)
    (hl : (Node.lambda l).Within n) : l.Closed := by
  induction hl generalizing I L with
  | self =>
    cases h with
    | lambda hparams hsorted _ h => exact ⟨hparams, hsorted, h⟩
  | part hk _ ih =>
    obtain ⟨I', -, L', hk⟩ := h.part hk
    exact ih hk

/-- What a tree in scope reads from the binding are its inputs. -/
theorem Scoped.mem_inputs {I L : List String} {n : Node} {x : String} {span : Span}
    (h : n.Scoped I L) (hx : (Node.freeName x span).Within n) : x ∈ I := by
  induction hx generalizing I L with
  | self =>
    cases h with
    | freeName h => exact h
  | part hk _ ih =>
    obtain ⟨I', hI, L', hk⟩ := h.part hk
    exact hI (ih hk)

end Node

section Size

theorem sizeOf_snd_lt {α β : Type} [SizeOf α] [SizeOf β] {p : α × β} {ps : List (α × β)}
    (h : p ∈ ps) : sizeOf p.2 < sizeOf ps := by
  have hp := List.sizeOf_lt_of_mem h
  obtain ⟨a, b⟩ := p
  simp only [Prod.mk.sizeOf_spec] at hp
  simp only
  omega

namespace Node

variable {n m : Node}

theorem sizeOf_part (h : m ∈ n.parts) : sizeOf m < sizeOf n := by
  cases n with
  | constant | localName | freeName => cases h
  | list nodes span | block nodes span | allOf nodes span | anyOf nodes span
  | nativeCall f nodes span =>
    have hm : sizeOf m < sizeOf nodes := List.sizeOf_lt_of_mem h
    simp only [Node.list.sizeOf_spec, Node.block.sizeOf_spec, Node.allOf.sizeOf_spec,
      Node.anyOf.sizeOf_spec, Node.nativeCall.sizeOf_spec]
    omega
  | branch cond yes no span =>
    simp only [Node.branch.sizeOf_spec]
    simp only [parts, List.mem_cons, Option.mem_toList] at h
    rcases h with rfl | rfl | h
    · omega
    · omega
    · cases h
      simp only [Option.some.sizeOf_spec]
      omega
  | bind bindings nodes span =>
    simp only [Node.bind.sizeOf_spec]
    rcases List.mem_append.1 h with h | h
    · obtain ⟨p, hp, rfl⟩ := List.mem_map.1 h
      have hsize := sizeOf_snd_lt hp
      omega
    · have hsize := List.sizeOf_lt_of_mem h
      omega
  | lambda l =>
    cases l with
    | mk params captures body span =>
      have hm : sizeOf m < sizeOf body := List.sizeOf_lt_of_mem h
      simp only [Node.lambda.sizeOf_spec, Lambda.mk.sizeOf_spec]
      omega
  | call callee nodes span =>
    simp only [Node.call.sizeOf_spec]
    rcases List.mem_cons.1 h with rfl | h
    · omega
    · have hsize := List.sizeOf_lt_of_mem h
      omega

theorem sizeOf_within (h : m.Within n) : sizeOf m ≤ sizeOf n := by
  induction h with
  | self => exact Nat.le_refl _
  | part hk _ ih => exact Nat.le_trans ih (Nat.le_of_lt (sizeOf_part hk))

theorem sizeOf_mentions {v : Value} (h : n.Mentions v) : sizeOf v < sizeOf n := by
  obtain ⟨span, h⟩ := h
  have hn := sizeOf_within h
  simp only [Node.constant.sizeOf_spec] at hn
  omega

end Node

end Size

end Scriptlet
