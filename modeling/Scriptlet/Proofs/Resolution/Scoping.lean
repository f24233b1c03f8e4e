import Scriptlet.Proofs.Names
import Scriptlet.Proofs.Node
import Scriptlet.Proofs.Resolution.Judgement

/-!
Resolved nodes are in scope. A use of an outer name makes the name a capture of every `fn` between
the use and the place that binds it, so wherever code runs, the names that it reads are held.
-/

namespace Scriptlet

namespace Place

/-- Names of the locals, innermost first. -/
def names (p : Place) : List String := p.locals.map (·.1)

@[simp] theorem names_bind (p : Place) (x : String) : (p.bind x).names = x :: p.names := rfl

@[simp] theorem names_enter (p : Place) (params : List String) :
    (p.enter params).names = params ++ p.names := by
  simp [names, enter, Function.comp_def]

@[simp] theorem level_bind (p : Place) (x : String) : (p.bind x).level = p.level := rfl

theorem level?_isSome {p : Place} {x : String} : (p.level? x).isSome ↔ x ∈ p.names :=
  lookup_isSome_iff_mem

theorem level?_eq_none {p : Place} {x : String} : p.level? x = none ↔ x ∉ p.names :=
  lookup_eq_none_iff_notMem

theorem level?_bind (p : Place) (x y : String) :
    (p.bind x).level? y = if y = x then some p.level else p.level? y := by
  by_cases hy : y = x
  · simp [level?, bind, hy]
  · simp [level?, bind, List.lookup_cons, beq_false_of_ne hy, hy]

theorem level?_enter (p : Place) (params : List String) (y : String) :
    (p.enter params).level? y = if y ∈ params then some (p.level + 1) else p.level? y := by
  rw [level?, enter, lookup_append_or]
  induction params with
  | nil => simp [level?]
  | cons x params ih =>
    by_cases hy : y = x
    · simp [hy]
    · simpa [List.lookup_cons, beq_false_of_ne hy, hy] using ih

/-- No local is bound deeper than the place itself. -/
def Bounded (p : Place) : Prop := ∀ x l, p.level? x = some l → l ≤ p.level

theorem bounded_top : top.Bounded := fun _ _ h => nomatch h

theorem Bounded.bind {p : Place} (h : p.Bounded) (x : String) : (p.bind x).Bounded := by
  intro y l hy
  rw [level?_bind] at hy
  split at hy
  · cases hy
    exact Nat.le_refl _
  · exact h y l hy

theorem Bounded.enter {p : Place} (h : p.Bounded) (params : List String) :
    (p.enter params).Bounded := by
  intro y l hy
  rw [level?_enter] at hy
  split at hy
  · cases hy
    exact Nat.le_refl _
  · exact Nat.le_succ_of_le (h y l hy)

end Place

theorem mem_captures {level : Nat} {uses : List Use} {x : String} :
    x ∈ captures level uses ↔ ∃ u ∈ uses, u.isOutside level ∧ u.name = x := by
  simp [captures, mem_sortNames, mem_distinctNames, and_assoc]

theorem pairwise_captures (level : Nat) (uses : List Use) :
    (captures level uses).Pairwise (· < ·) :=
  pairwise_sortNames (nodup_distinctNames _)

/-- Uses that are found in a form at the place: an outer name has the level that it has here, and a
free name is neither a local nor a global. -/
structure Grounded (env : Environment) (p : Place) (uses : List Use) : Prop where
  outer : ∀ u ∈ uses, ∀ l, u.level = some l → l < p.level → p.level? u.name = some l
  free : ∀ u ∈ uses, u.level = none → p.level? u.name = none ∧ env.get? u.name = none

namespace Grounded

variable {env : Environment} {p : Place} {us vs : List Use}

theorem nil : Grounded env p [] := ⟨fun _ hu => (nomatch hu), fun _ hu => (nomatch hu)⟩

theorem localName {x : String} {level : Nat} (span : Span) (h : p.level? x = some level) :
    Grounded env p [⟨x, span, some level⟩] := by
  refine ⟨fun u hu l hl _ => ?_, fun u hu hl => ?_⟩
  · cases List.mem_singleton.1 hu
    cases hl
    exact h
  · cases List.mem_singleton.1 hu
    cases hl

theorem freeName {x : String} (span : Span) (h : p.level? x = none) (hg : env.get? x = none) :
    Grounded env p [⟨x, span, none⟩] := by
  refine ⟨fun u hu l hl _ => ?_, fun u hu _ => ?_⟩
  · cases List.mem_singleton.1 hu
    cases hl
  · cases List.mem_singleton.1 hu
    exact ⟨h, hg⟩

theorem append (h : Grounded env p us) (h' : Grounded env p vs) : Grounded env p (us ++ vs) :=
  ⟨fun u hu => (List.mem_append.1 hu).elim (h.outer u) (h'.outer u),
    fun u hu => (List.mem_append.1 hu).elim (h.free u) (h'.free u)⟩

theorem unbind {x : String} (h : Grounded env (p.bind x) us) : Grounded env p us := by
  refine ⟨fun u hu l hl hlt => ?_, fun u hu hl => ?_⟩
  · have hlevel := h.outer u hu l hl hlt
    rw [Place.level?_bind] at hlevel
    split at hlevel
    · cases hlevel
      exact absurd hlt (Nat.lt_irrefl _)
    · exact hlevel
  · obtain ⟨hlevel, hg⟩ := h.free u hu hl
    rw [Place.level?_bind] at hlevel
    split at hlevel
    · cases hlevel
    · exact ⟨hlevel, hg⟩

theorem leave {params : List String} (h : Grounded env (p.enter params) us) :
    Grounded env p us := by
  refine ⟨fun u hu l hl hlt => ?_, fun u hu hl => ?_⟩
  · have hlevel := h.outer u hu l hl (Nat.lt_succ_of_lt hlt)
    rw [Place.level?_enter] at hlevel
    split at hlevel
    · cases hlevel
      omega
    · exact hlevel
  · obtain ⟨hlevel, hg⟩ := h.free u hu hl
    rw [Place.level?_enter] at hlevel
    split at hlevel
    · cases hlevel
    · exact ⟨hlevel, hg⟩

end Grounded

mutual

theorem Resolves.grounded {env : Environment} {p : Place} {f : Form} {n : Node} {uses : List Use}
    (h : Resolves env p f n uses) : Grounded env p uses :=
  match h with
  | .literal _ | .globalName _ _ | .empty | .quotation _ => .nil
  | .localName hx => .localName _ hx
  | .freeName hx hg _ => .freeName _ hx hg
  | .vector h | .block _ h | .allOf _ h | .anyOf _ h | .nativeCall _ _ _ _ h => h.grounded
  | .branch _ hcond hyes => hcond.grounded.append hyes.grounded
  | .branchElse _ hcond hyes hno => hcond.grounded.append (hyes.grounded.append hno.grounded)
  | .bind _ _ h => h.grounded
  | .lambda _ _ _ h => h.grounded.leave
  | .call _ hhead h => hhead.grounded.append h.grounded

theorem ResolvesAll.grounded {env : Environment} {p : Place} {fs : List Form} {ns : List Node}
    {uses : List Use} (h : ResolvesAll env p fs ns uses) : Grounded env p uses :=
  match h with
  | .nil => .nil
  | .cons hf h => hf.grounded.append h.grounded

theorem ResolvesBindings.grounded {env : Environment} {p : Place} {pairs body : List Form}
    {bindings : List (String × Node)} {nodes : List Node} {uses : List Use}
    (h : ResolvesBindings env p pairs bindings body nodes uses) : Grounded env p uses :=
  match h with
  | .nil h => h.grounded
  | .cons hn h => hn.grounded.append h.grounded.unbind

end

/-- What code at a place can count on covers the uses of names in it: names that the running `fn`
binds are held, and so are its captures. Free names are captures too, but for code outside of every
`fn` they are inputs. -/
structure Fits (p : Place) (inputs held : List String) (uses : List Use) : Prop where
  here : ∀ x, p.level? x = some p.level → x ∈ held
  outer : ∀ u ∈ uses, ∀ l, u.level = some l → l < p.level → u.name ∈ held
  free : ∀ u ∈ uses, u.level = none → if p.level = 0 then u.name ∈ inputs else u.name ∈ held

namespace Fits

variable {env : Environment} {p : Place} {I L : List String} {us vs : List Use}

theorem left (h : Fits p I L (us ++ vs)) : Fits p I L us :=
  ⟨h.here, fun u hu => h.outer u (List.mem_append_left vs hu),
    fun u hu => h.free u (List.mem_append_left vs hu)⟩

theorem right (h : Fits p I L (us ++ vs)) : Fits p I L vs :=
  ⟨h.here, fun u hu => h.outer u (List.mem_append_right us hu),
    fun u hu => h.free u (List.mem_append_right us hu)⟩

theorem bind (h : Fits p I L us) (x : String) : Fits (p.bind x) I (x :: L) us := by
  refine ⟨fun y hy => ?_, fun u hu l hl hlt => ?_, fun u hu hl => ?_⟩
  · rw [Place.level?_bind] at hy
    split at hy
    · next he => exact he ▸ List.mem_cons_self
    · exact List.mem_cons_of_mem x (h.here y hy)
  · exact List.mem_cons_of_mem x (h.outer u hu l hl hlt)
  · have hfree := h.free u hu hl
    rw [Place.level_bind]
    split at hfree
    · next h0 => rwa [if_pos h0]
    · next h0 =>
      rw [if_neg h0]
      exact List.mem_cons_of_mem x hfree

/-- The body of a `fn` needs its parameters and its captures, and nothing else. -/
theorem enter (hp : p.Bounded) (params : List String) (us : List Use) :
    Fits (p.enter params) [] (params ++ captures p.level us) us := by
  refine ⟨fun x hx => ?_, fun u hu l hl hlt => ?_, fun u hu hl => ?_⟩
  · rw [Place.level?_enter] at hx
    split at hx
    · next hmem => exact List.mem_append_left _ hmem
    · exact absurd (hp x _ hx) (Nat.not_succ_le_self _)
  · refine List.mem_append_right _ (mem_captures.2 ⟨u, hu, ?_, rfl⟩)
    simpa [Use.isOutside, hl] using Nat.le_of_lt_succ hlt
  · refine List.mem_append_right _ (mem_captures.2 ⟨u, hu, ?_, rfl⟩)
    simp [Use.isOutside, hl]

/-- A capture is held where the `fn` stands, or it is an input that no local and no global hides. -/
theorem captures (h : Fits p I L us) {params : List String}
    (hg : Grounded env (p.enter params) us) {x : String} (hx : x ∈ captures p.level us) :
    x ∈ L ∨ x ∈ I ∧ x ∉ p.names ∧ env.get? x = none := by
  obtain ⟨u, hu, hout, rfl⟩ := mem_captures.1 hx
  cases hl : u.level with
  | some l =>
    have hle : l ≤ p.level := by simpa [Use.isOutside, hl] using hout
    rcases Nat.lt_or_eq_of_le hle with hlt | rfl
    · exact .inl (h.outer u hu l hl hlt)
    · have hlevel := hg.outer u hu _ hl (Nat.lt_succ_self _)
      rw [Place.level?_enter] at hlevel
      split at hlevel
      · exact absurd (Option.some.inj hlevel) (Nat.succ_ne_self _)
      · exact .inl (h.here _ hlevel)
  | none =>
    have hfree := h.free u hu hl
    split at hfree
    · obtain ⟨hlevel, hglobal⟩ := hg.leave.free u hu hl
      exact .inr ⟨hfree, Place.level?_eq_none.1 hlevel, hglobal⟩
    · exact .inl hfree

end Fits

mutual

theorem Resolves.scoped {env : Environment} {p : Place} {f : Form} {n : Node} {uses : List Use}
    {I L : List String} (h : Resolves env p f n uses) (hp : p.Bounded) (hfits : Fits p I L uses) :
    n.Scoped I L :=
  match h with
  | .literal _ | .globalName _ _ | .empty | .quotation _ => .constant
  | @Resolves.localName _ _ _ _ l hx => .localName <| by
    rcases Nat.lt_or_eq_of_le (hp _ _ hx) with hlt | rfl
    · exact hfits.outer _ (List.mem_singleton.2 rfl) l rfl hlt
    · exact hfits.here _ hx
  | .freeName _ _ _ => by
    have hfree := hfits.free _ (List.mem_singleton.2 rfl) rfl
    split
    · next h0 => exact .freeName (by rwa [if_pos h0] at hfree)
    · next h0 => exact .localName (by rwa [if_neg h0] at hfree)
  | .vector h => .list (h.scoped hp hfits)
  | .block _ h => .block (h.scoped hp hfits)
  | .allOf _ h => .allOf (h.scoped hp hfits)
  | .anyOf _ h => .anyOf (h.scoped hp hfits)
  | .nativeCall _ _ _ _ h => .nativeCall (h.scoped hp hfits)
  | .branch _ hcond hyes =>
    .branch (hcond.scoped hp hfits.left) (hyes.scoped hp hfits.right) fun _ hn => nomatch hn
  | .branchElse _ hcond hyes hno =>
    .branch (hcond.scoped hp hfits.left) (hyes.scoped hp hfits.right.left) fun _ hn =>
      Option.some.inj hn ▸ hno.scoped hp hfits.right.right
  | .bind _ hnames h => .bind hnames.nodup (h.scoped hp hfits)
  | .lambda _ _ hnames h =>
    .lambda hnames.nodup (pairwise_captures _ _)
      (fun _ hx => (hfits.captures h.grounded hx).imp_right And.left)
      (h.scoped (hp.enter _) (.enter hp _ _))
  | .call _ hhead h => .call (hhead.scoped hp hfits.left) (h.scoped hp hfits.right)

theorem ResolvesAll.scoped {env : Environment} {p : Place} {fs : List Form} {ns : List Node}
    {uses : List Use} {I L : List String} (h : ResolvesAll env p fs ns uses) (hp : p.Bounded)
    (hfits : Fits p I L uses) : ∀ n ∈ ns, n.Scoped I L :=
  match h with
  | .nil => fun _ hn => nomatch hn
  | .cons hf h => List.forall_mem_cons.2 ⟨hf.scoped hp hfits.left, h.scoped hp hfits.right⟩

theorem ResolvesBindings.scoped {env : Environment} {p : Place} {pairs body : List Form}
    {bindings : List (String × Node)} {nodes : List Node} {uses : List Use} {I L : List String}
    (h : ResolvesBindings env p pairs bindings body nodes uses) (hp : p.Bounded)
    (hfits : Fits p I L uses) : Node.ScopedBindings I L bindings nodes :=
  match h with
  | .nil h => .nil (h.scoped hp hfits)
  | .cons hn h => .cons (hn.scoped hp hfits.left) (h.scoped (hp.bind _) (hfits.right.bind _))

end

end Scriptlet
