import Scriptlet.Proofs.Resolution.Scoping
import Scriptlet.Proofs.Resolution.Stacks

/-!
The walk over the forms against resolution. What the stacks show of a name is what the place knows
of it, so that a form comes to the same node with the same errors; and the frames take up the names
that the uses of the form give to the `fn` forms around.
-/

namespace Scriptlet

theorem Frame.foldl_take (names : List String) (f : Frame) :
    names.foldl Frame.take f =
      { f with captures := f.captures ++ (distinctNames names).filter (· ∉ f.captures) } := by
  induction names generalizing f with
  | nil => simp [distinctNames]
  | cons n names ih =>
    rw [List.foldl_cons, ih, distinctNames, Frame.take, List.filter_cons, List.filter_filter]
    by_cases hn : n ∈ f.captures
    · have hsame : ∀ x ∈ distinctNames names,
          decide (x ∉ f.captures) = (decide (x ∉ f.captures) && x != n) := by
        intro x _
        by_cases hx : x = n <;> simp [hx, hn]
      rw [if_pos hn, if_neg (by simpa using hn), List.filter_congr hsame]
    · have hsame : ∀ x ∈ distinctNames names,
          decide (x ∉ f.captures ++ [n]) = (decide (x ∉ f.captures) && x != n) := by
        intro x _
        by_cases hx : x = n <;> simp [hx]
      rw [if_neg hn, if_pos (by simpa using hn), List.filter_congr hsame, List.append_assoc]
      rfl

/-- Takes up the names that are bound outside of a `fn` at the level. -/
def Frame.record (level : Nat) (uses : List Use) (f : Frame) : Frame :=
  ((uses.filter fun u => u.isOutside level).map (·.name)).foldl Frame.take f

namespace Stacks

def recordIn (uses : List Use) : List Frame → List Frame
  | [] => []
  | f :: outer => f.record outer.length uses :: recordIn uses outer

/-- The uses go to all `fn` forms around that capture them. -/
def record (s : Stacks) (uses : List Use) : Stacks := { s with frames := recordIn uses s.frames }

/-- The stacks are those of the place: they know the same names, and bind them at the same
levels. -/
structure Shows (s : Stacks) (p : Place) : Prop where
  level : s.frames.length = p.level
  locals : ∀ x, p.level? x = (s.scopes.locate x).map fun found => s.level found.1
  nested : (s.frames.map Frame.base).Pairwise (· > ·)
  below : ∀ base ∈ s.frames.map Frame.base, base < s.scopes.size

section Record

variable {s t : Stacks} {p : Place} {us vs : List Use}

@[simp] theorem base_foldl_take (names : List String) (f : Frame) :
    (names.foldl Frame.take f).base = f.base := by rw [Frame.foldl_take]

@[simp] theorem scopes_record (s : Stacks) (us : List Use) : (s.record us).scopes = s.scopes := rfl

theorem bases_recordIn (us : List Use) (frames : List Frame) :
    (recordIn us frames).map Frame.base = frames.map Frame.base := by
  induction frames with
  | nil => rfl
  | cons f frames ih => rw [recordIn, List.map_cons, List.map_cons, ih, Frame.record, base_foldl_take]

theorem kept_record (s : Stacks) (us : List Use) : s.Kept (s.record us) :=
  ⟨rfl, bases_recordIn us s.frames⟩

theorem length_recordIn (us : List Use) (frames : List Frame) :
    (recordIn us frames).length = frames.length := by
  rw [← List.length_map Frame.base, bases_recordIn, List.length_map]

@[simp] theorem record_nil (s : Stacks) : s.record [] = s := by
  have hnil : ∀ frames, recordIn [] frames = frames := by
    intro frames
    induction frames with
    | nil => rfl
    | cons f frames ih => rw [recordIn, ih]; rfl
  rw [record, hnil]

theorem recordIn_append (us vs : List Use) (frames : List Frame) :
    recordIn (us ++ vs) frames = recordIn vs (recordIn us frames) := by
  induction frames with
  | nil => rfl
  | cons f frames ih =>
    rw [recordIn, recordIn, recordIn, ih, length_recordIn]
    simp only [Frame.record, List.filter_append, List.map_append, List.foldl_append]

theorem record_append (s : Stacks) (us vs : List Use) :
    s.record (us ++ vs) = (s.record us).record vs := by
  rw [record, recordIn_append]
  rfl

theorem Kept.level_eq (h : s.Kept t) (index : Nat) : t.level index = s.level index := by
  have hmap : ∀ frames : List Frame, frames.countP (fun f => f.base ≤ index) =
      (frames.map Frame.base).countP (· ≤ index) := fun frames => by
    rw [List.countP_map]
    rfl
  rw [level, level, hmap, hmap, h.bases]

theorem Shows.kept (h : s.Shows p) (hk : s.Kept t) : t.Shows p := by
  refine ⟨?_, fun x => ?_, ?_, ?_⟩
  · rw [← List.length_map Frame.base, hk.bases, List.length_map, h.level]
  · simp only [hk.scopes, hk.level_eq]
    exact h.locals x
  · rw [hk.bases]
    exact h.nested
  · rw [hk.bases, hk.scopes]
    exact h.below

theorem Shows.record (h : s.Shows p) (us : List Use) : (s.record us).Shows p :=
  h.kept (s.kept_record us)

/-- Under the `fn` forms around, those that capture a name are those that the level of its scope
does not reach. -/
theorem recordIn_some (name : String) (span : Span) {index level : Nat} {frames : List Frame}
    (h : (frames.map Frame.base).Pairwise (· > ·))
    (hlevel : min level frames.length = frames.countP fun f => f.base ≤ index) :
    recordIn [⟨name, span, some level⟩] frames =
      frames.map (Frame.meet name (some index)) := by
  induction frames with
  | nil => rfl
  | cons f outer ih =>
    obtain ⟨hf, houter⟩ := List.pairwise_cons.1 h
    rw [List.countP_cons, List.length_cons] at hlevel
    have hle : outer.countP (fun f => f.base ≤ index) ≤ outer.length := List.countP_le_length
    by_cases hbase : f.base ≤ index
    · -- The scope is above this `fn`, so it is above all `fn` forms around it too.
      have hall : outer.countP (fun f => f.base ≤ index) = outer.length := by
        apply List.countP_eq_length.2
        intro g hg
        have hlt := hf g.base (List.mem_map_of_mem hg)
        simp only [decide_eq_true_eq]
        omega
      simp only [hbase, decide_true, if_true] at hlevel
      have hnot : ¬ index < f.base := by omega
      have hlt : ¬ level ≤ outer.length := by omega
      rw [recordIn, List.map_cons, ih houter (by omega)]
      simp [Frame.record, Frame.meet, Use.isOutside, hnot, hlt]
    · simp only [hbase, decide_false] at hlevel
      have hlt : index < f.base := by omega
      have hle' : level ≤ outer.length := by simp at hlevel; omega
      rw [recordIn, List.map_cons, ih houter (by simp at hlevel; omega)]
      simp [Frame.record, Frame.meet, Use.isOutside, hlt, hle']

theorem recordIn_none (name : String) (span : Span) (frames : List Frame) :
    recordIn [⟨name, span, none⟩] frames = frames.map (Frame.meet name none) := by
  induction frames with
  | nil => rfl
  | cons f outer ih =>
    rw [recordIn, ih]
    rfl

theorem Shows.capture_some (h : s.Shows p) (name : String) (span : Span) (index : Nat) :
    s.capture name (some index) = s.record [⟨name, span, some (s.level index)⟩] := by
  have hframes := recordIn_some name span h.nested
    (Nat.min_eq_left (List.countP_le_length : s.level index ≤ s.frames.length))
  rw [capture, Stacks.record, Stacks.level, hframes]

theorem capture_none (s : Stacks) (name : String) (span : Span) :
    s.capture name none = s.record [⟨name, span, none⟩] := by
  rw [capture, Stacks.record, recordIn_none]

/-- Out of the scope of a `let`, the frames have the uses in its values and in its body. -/
theorem pop_record {names : List String} (hscopes : t.scopes.Awaits names s.scopes)
    (hframes : t.frames = (s.record us).frames) (vs : List Use) :
    (t.record vs).pop = s.record (us ++ vs) := by
  rw [pop, scopes_record, hscopes.pop, record_append]
  change Stacks.mk s.scopes (recordIn vs t.frames) = _
  rw [hframes]
  rfl

/-- Out of a `fn`, its frame has the outer names that its body uses. -/
theorem leave_record (h : s.Shows p) (scope : Scope Unit) (us : List Use) :
    ((s.enter scope).record us).leave =
      (distinctNames ((us.filter fun u => u.isOutside p.level).map (·.name)), s.record us) := by
  change ((Frame.record s.frames.length us ⟨s.scopes.size, []⟩).captures, _) = _
  have hcaptures : ∀ names : List String, (distinctNames names).filter (· ∉ []) =
      distinctNames names := fun names => by simp
  rw [Frame.record, Frame.foldl_take, h.level, List.nil_append, hcaptures]
  rfl

end Record

end Stacks

namespace Scopes

variable {α : Type}

theorem locate_cons (scope : Scope α) (rest : List (Scope α)) (x : String) :
    (Scopes.mk (scope :: rest)).locate x =
      ((scope.lookup x).map fun v => (rest.length, v)).or ((Scopes.mk rest).locate x) := by
  simp only [locate, locateIn]
  cases scope.lookup x <;> rfl

theorem locate_lt {s : Scopes α} {x : String} {found : Nat × α} (h : s.locate x = some found) :
    found.1 < s.size := by
  obtain ⟨scopes⟩ := s
  induction scopes with
  | nil => cases h
  | cons scope rest ih =>
    rw [locate_cons, Option.or_eq_some_iff] at h
    rcases h with h | ⟨-, h⟩
    · obtain ⟨v, -, rfl⟩ := Option.map_eq_some_iff.1 h
      exact Nat.lt_succ_self _
    · exact Nat.lt_succ_of_lt (ih h)

end Scopes

namespace Stacks.Shows

variable {s : Stacks} {p : Place}

theorem top : Stacks.empty.Shows .top :=
  ⟨rfl, fun _ => rfl, .nil, fun _ h => nomatch h⟩

/-- A scope above all `fn` forms binds names of the place's own level. -/
theorem level_top (h : s.Shows p) {index : Nat}
    (habove : ∀ base ∈ s.frames.map Frame.base, base ≤ index) : s.level index = p.level := by
  rw [← h.level, Stacks.level, List.countP_eq_length]
  intro f hf
  exact decide_eq_true (habove f.base (List.mem_map_of_mem hf))

/-- A scope in which nothing is bound yet hides nothing. -/
theorem push (h : s.Shows p) {scope : Scope Unit} (hscope : ∀ x, scope.lookup x = none) :
    (s.push scope).Shows p := by
  refine ⟨h.level, fun x => ?_, h.nested, fun base hbase => ?_⟩
  · have hlocate : (s.scopes.push scope).locate x = s.scopes.locate x := by
      rw [Scopes.push, Scopes.locate_cons, hscope]
      rfl
    rw [Stacks.push, hlocate]
    exact h.locals x
  · exact Nat.lt_succ_of_lt (h.below base hbase)

/-- The next name of a `let` is bound in the scope on top. -/
theorem bind (h : s.Shows p) {outer : Scopes Unit} {x : String} {names : List String}
    (hawaits : s.scopes.Awaits (x :: names) outer) (hx : x ∉ names)
    (hbelow : ∀ base ∈ s.frames.map Frame.base, base < outer.size) :
    (s.bind x).Shows (p.bind x) ∧ (s.bind x).scopes.Awaits names outer ∧
      (s.bind x).frames = s.frames := by
  obtain ⟨⟨scopes⟩, frames⟩ := s
  obtain ⟨slots, hslots, hwait⟩ := hawaits
  cases hslots
  have hslot : slots.lookup x = some none := hwait x List.mem_cons_self
  have hbind : (⟨⟨.growing slots :: outer.toList⟩, frames⟩ : Stacks).bind x =
      ⟨⟨.growing (Scope.fill x () slots) :: outer.toList⟩, frames⟩ := by
    simp [Stacks.bind, Scopes.bind, Scope.bind, hslot, Except.map]
  rw [hbind]
  refine ⟨⟨h.level, fun y => ?_, h.nested, h.below⟩, ⟨_, rfl, fun y hy => ?_⟩, rfl⟩
  · have hlocals := h.locals y
    rw [Scopes.locate_cons, Scope.lookup] at hlocals
    rw [Place.level?_bind, Scopes.locate_cons, Scope.lookup, Scope.lookup_fill]
    by_cases hy : y = x
    · subst hy
      have htop := h.level_top fun base hbase => Nat.le_of_lt (hbelow base hbase)
      rw [if_pos rfl, if_pos rfl, hslot]
      exact congrArg some htop.symm
    · rw [if_neg hy, if_neg hy]
      exact hlocals
  · have hne : y ≠ x := fun he => hx (he ▸ hy)
    rw [Scope.lookup_fill, if_neg hne]
    exact hwait y (List.mem_cons_of_mem _ hy)

/-- In the body of a `fn` the parameters are bound one level deeper. -/
theorem enter (h : s.Shows p) {names : List String} {scope : Scope Unit}
    (hscope : ∀ x, scope.lookup x = (names.map fun n => (n, ())).lookup x) :
    (s.enter scope).Shows (p.enter names) := by
  refine ⟨congrArg (· + 1) h.level, fun x => ?_, ?_, ?_⟩
  · have hlocate : (s.enter scope).scopes.locate x =
        ((scope.lookup x).map fun v => (s.scopes.size, v)).or (s.scopes.locate x) :=
      Scopes.locate_cons scope s.scopes.toList x
    rw [hlocate, hscope, Place.level?_enter]
    by_cases hx : x ∈ names
    · rw [if_pos hx, lookup_map_const, if_pos hx, Option.map_some, Option.some_or, Option.map_some]
      have hcount : s.level s.scopes.size = p.level :=
        h.level_top fun base hbase => Nat.le_of_lt (h.below base hbase)
      rw [← hcount, Stacks.level, Stacks.level]
      simp [Stacks.enter, Stacks.push]
    · rw [if_neg hx, lookup_map_const, if_neg hx, Option.map_none, Option.none_or, h.locals]
      cases hfound : s.scopes.locate x with
      | none => rfl
      | some found =>
        have hlt := Scopes.locate_lt hfound
        have hnot : ¬ s.scopes.size ≤ found.1 := Nat.not_le.2 hlt
        simp [Stacks.level, Stacks.enter, Stacks.push, List.countP_cons, hnot]
  · exact List.pairwise_cons.2 ⟨h.below, h.nested⟩
  · intro base hbase
    rcases List.mem_cons.1 hbase with rfl | hbase
    · exact Nat.lt_succ_self _
    · exact Nat.lt_succ_of_lt (h.below base hbase)

end Stacks.Shows

namespace Resolution

theorem uses_targets (special : SpecialForm) (seen : List String) (ts : List Form) :
    (targets special seen ts).uses = [] := by
  induction ts generalizing seen with
  | nil => rfl
  | cons t ts ih =>
    rw [targets]
    split
    · rw [Resolved.uses_bind, Resolved.uses_bind, ih]
      rfl
    · exact ih _

theorem uses_quotation (args : List Form) (span : Span) : (quotation args span).uses = [] := by
  unfold quotation
  split <;> rfl

theorem uses_globalCall (env : Environment) (name : String) (head : Span) (args : List Node)
    (span : Span) : (globalCall env name head args span).uses = [] := by
  unfold globalCall
  split
  · rfl
  · split <;> rfl
  · rfl
  · rfl

/-- Targets are either all bound or reported. -/
theorem targets_some {special : SpecialForm} {ts : List Form} {names : List String}
    (h : (targets special [] ts).value = some names) :
    targets special [] ts = pure (some names) ∧ Bindable names := by
  have herrors : ∀ (ts : List Form) seen, (targets special seen ts).value ≠ none →
      (targets special seen ts).errors = [] := by
    intro ts
    induction ts with
    | nil => exact fun _ _ => rfl
    | cons t ts ih =>
      intro seen hvalue
      rw [targets] at hvalue ⊢
      split at hvalue
      · exact absurd rfl hvalue
      · exact ih _ hvalue
  have hnil := herrors ts [] (by rw [h]; exact Option.some_ne_none names)
  obtain ⟨names', heq, -, hbindable⟩ := targets_sound hnil ⟨.nil, by simp⟩
  rw [heq] at h ⊢
  cases h
  exact ⟨rfl, hbindable⟩

end Resolution

namespace Walk

/-- From the stacks the step comes to what was resolved, and the frames take up the uses. -/
def Follows {α : Type} (x : Walk α) (s : Stacks) (r : Resolved α) : Prop :=
  x.run s = ⟨(r.value, s.record r.uses), r.errors, r.uses⟩

namespace Follows

variable {α β : Type} {x : Walk α} {s : Stacks} {r : Resolved α}

theorem pure (a : α) : Follows (Pure.pure a) s (Pure.pure a) := by
  rw [Follows, Resolved.uses_pure, Stacks.record_nil]
  rfl

theorem bind {k : α → Walk β} {k' : α → Resolved β} (hx : Follows x s r)
    (hk : Follows (k r.value) (s.record r.uses) (k' r.value)) : Follows (x >>= k) s (r >>= k') := by
  have hrun : (x >>= k).run s = x.run s >>= fun a => (k a.1).run a.2 := rfl
  rw [Follows, hrun, hx, Resolved.uses_bind, Stacks.record_append]
  change Resolved.bind _ _ = _
  rw [Resolved.bind, hk]
  rfl

theorem look {k : Stacks → Walk α} (h : Follows (k s) s r) : Follows (get >>= k) s r := h

/-- What uses no names is the same for the walk. -/
theorem lift (h : r.uses = []) : Follows (liftM r) s r := by
  rw [Follows, h, Stacks.record_nil]
  change Resolved.mk (r.value, s) (r.errors ++ []) (r.uses ++ []) = _
  rw [List.append_nil, List.append_nil, h]

end Follows

/-- From stacks with the scope of a `let` on top the step resolves its values, and binds its names
in that scope. -/
def Binds (outer : Scopes Unit) (x : Walk (List (String × Node))) (s : Stacks)
    (r : Resolved (List (String × Node) × Place)) : Prop :=
  ∃ t rest, x.run s = ⟨(r.value.1, t), r.errors, r.uses⟩ ∧ t.Shows r.value.2 ∧
    t.scopes.Awaits rest outer ∧ t.frames = (s.record r.uses).frames

variable {env : Environment} {s : Stacks} {p : Place}

theorem Binds.nothing {outer : Scopes Unit} {names : List String} (h : s.Shows p)
    (hawaits : s.scopes.Awaits names outer) : Binds outer (pure []) s (pure ([], p)) := by
  refine ⟨s, names, rfl, h, hawaits, ?_⟩
  rw [Resolved.uses_pure, Stacks.record_nil]

theorem symbol_follows (h : s.Shows p) (name : String) (span : Span) :
    Follows (symbol env name span) s (Resolution.symbol env p name span) := by
  rw [Follows, symbol_run, Resolution.symbol, h.locals]
  cases s.scopes.locate name with
  | some found =>
    simp only [Option.map_some, h.capture_some name span found.1]
    rfl
  | none =>
    simp only [Option.map_none]
    cases env.get? name with
    | some v =>
      simp only [Resolved.uses_pure, Stacks.record_nil]
      rfl
    | none =>
      dsimp only
      by_cases hspecial : isSpecialName name = true
      · simp only [hspecial, if_true]
        exact Follows.lift rfl
      · simp only [hspecial]
        obtain ⟨scopes, frames⟩ := s
        have hlength : frames.length = p.level := h.level
        cases frames with
        | nil =>
          have hzero : p.level = 0 := hlength.symm
          rw [if_pos hzero]
          rfl
        | cons f outer =>
          have hne : p.level ≠ 0 := hlength ▸ Nat.succ_ne_zero _
          rw [if_neg hne, Stacks.capture_none _ name span]
          rfl

section Parts

variable {f : Form} {args : List Form} {span : Span}
  (ih : ∀ g, Tree.Inside g f → ∀ s p, Stacks.Shows s p →
    Follows (form env g) s (Resolution.form env p g))
include ih

theorem all_follows_inside (h : s.Shows p) {gs : List Form} (hgs : ∀ g ∈ gs, Tree.Inside g f) :
    Follows (all env gs) s (Resolution.all env p gs) := by
  induction gs generalizing s with
  | nil =>
    rw [all, Resolution.all]
    exact .pure _
  | cons g gs ihs =>
    obtain ⟨hg, hrest⟩ := List.forall_mem_cons.1 hgs
    rw [all, Resolution.all]
    exact (ih g hg s p h).bind ((ihs (h.record _) hrest).bind (.pure _))

theorem branch_follows (h : s.Shows p) (hargs : ∀ g ∈ args, Tree.Inside g f) :
    Follows (branch env args span) s (Resolution.branch env p args span) := by
  unfold branch
  split
  · next cond yes =>
    rw [Resolution.branch]
    refine (ih cond (hargs cond (by simp)) s p h).bind ?_
    exact (ih yes (hargs yes (by simp)) _ p (h.record _)).bind (.pure _)
  · next cond yes no =>
    rw [Resolution.branch]
    refine (ih cond (hargs cond (by simp)) s p h).bind ?_
    refine (ih yes (hargs yes (by simp)) _ p (h.record _)).bind ?_
    exact (ih no (hargs no (by simp)) _ p ((h.record _).record _)).bind (.pure _)
  · next htwo hthree =>
    rw [Resolution.branch]
    · exact .lift rfl
    · exact htwo
    · exact hthree

/-- The values of a `let`, from stacks with its scope on top. -/
theorem bindingsOf_binds {outer : Scopes Unit} {names : List String} {pairs : List Form}
    (h : s.Shows p) (hawaits : s.scopes.Awaits names outer) (hnames : names.Nodup)
    (hbelow : ∀ base ∈ s.frames.map Frame.base, base < outer.size)
    (hpairs : ∀ g ∈ pairs, Tree.Inside g f) :
    Binds outer (bindingsOf env names pairs) s (Resolution.bindingsOf env p names pairs) := by
  induction names generalizing s p pairs with
  | nil =>
    rw [bindingsOf, Resolution.bindingsOf]
    · exact .nothing h hawaits
    · simp
    · simp
  | cons x names ihs =>
    rcases pairs with _ | ⟨target, _ | ⟨value, rest⟩⟩
    · exact .nothing h hawaits
    · exact .nothing h hawaits
    · have hrest : ∀ g ∈ rest, Tree.Inside g f := fun g hg => hpairs g (by simp [hg])
      obtain ⟨hx, hnames⟩ := List.nodup_cons.1 hnames
      have hvalue := ih value (hpairs value (by simp)) s p h
      generalize hr : Resolution.form env p value = r at hvalue
      have hkept := s.kept_record r.uses
      have hbelow' : ∀ base ∈ (s.record r.uses).frames.map Frame.base, base < outer.size := by
        rw [hkept.bases]
        exact hbelow
      obtain ⟨hbind, hawaits', hframes⟩ := (h.record r.uses).bind hawaits hx hbelow'
      obtain ⟨t, names', hrun, ht, hout, hts⟩ :=
        ihs hbind hawaits' hnames (by rw [hframes]; exact hbelow') hrest
      generalize hr' : Resolution.bindingsOf env (p.bind x) names rest = r' at hrun ht hts
      refine ⟨t, names', ?_⟩
      rw [bindingsOf, Resolution.bindingsOf, hr, hr']
      refine ⟨?_, ht, hout, ?_⟩
      · simp only [StateT.run_bind, StateT.run_modify, pure_bind]
        rw [Follows] at hvalue
        rw [hvalue]
        change Resolved.bind _ _ = _
        rw [Resolved.bind]
        dsimp only
        rw [hrun]
        rfl
      · change t.frames = Stacks.recordIn (r.uses ++ (r'.uses ++ [])) s.frames
        rw [hts, List.append_nil, Stacks.recordIn_append]
        exact congrArg (Stacks.recordIn r'.uses) hframes

theorem bindForm_follows (h : s.Shows p) (hargs : ∀ g ∈ args, Tree.Inside g f) :
    Follows (bindForm env args span) s (Resolution.bindForm env p args span) := by
  unfold bindForm
  split
  · next pairs vector body =>
    obtain ⟨hvector, hbody⟩ := List.forall_mem_cons.1 hargs
    have hpairs : ∀ g ∈ pairs, Tree.Inside g f := fun g hg => hvector.of_within (.item hg .self)
    rw [Resolution.bindForm]
    split
    · exact .lift rfl
    · refine (Follows.lift (Resolution.uses_targets _ _ _)).bind ?_
      cases hnames : (Resolution.targets .bind [] (Resolution.firsts pairs)).value with
      | none => exact .pure _
      | some names =>
        have hbindable := (Resolution.targets_some hnames).2
        obtain ⟨scope, hscope, hpush⟩ := Scope.declare_ok (α := Unit) hbindable.nodup
        obtain ⟨hawaits, -⟩ := hpush s.scopes
        have hhidden : ∀ x, scope.lookup x = none := fun x =>
          Option.eq_none_iff_forall_ne_some.2 (Scope.all_declare (P := fun _ => False) hscope x)
        obtain ⟨t, rest, hrun, ht, hout, hframes⟩ :=
          bindingsOf_binds ih (h.push hhidden) hawaits hbindable.nodup h.below hpairs
        generalize hr : Resolution.bindingsOf env p names pairs = r at hrun ht hframes
        have hbody' := all_follows_inside ih ht hbody
        generalize hr' : Resolution.all env r.value.2 body = r' at hbody'
        rw [Follows] at hbody'
        have hpop : (t.record r'.uses).pop = s.record (r.uses ++ (r'.uses ++ [])) := by
          rw [List.append_nil]
          exact Stacks.pop_record hout hframes r'.uses
        simp only [hscope, Resolution.uses_targets, Stacks.record_nil, hr]
        change Resolved.bind ((bindingsOf env names pairs).run (s.push scope)) (fun bindings =>
          Resolved.bind ((all env body).run bindings.2) fun body =>
            Pure.pure (Node.bind bindings.1 body.1 span, body.2.pop)) = _
        rw [hrun, Resolved.bind]
        dsimp only
        rw [hbody', Resolved.bind]
        dsimp only
        rw [hpop, ← hr']
        rfl
  · next hno =>
    rw [Resolution.bindForm]
    · exact .lift rfl
    · exact hno

theorem lambda_follows (h : s.Shows p) (hargs : ∀ g ∈ args, Tree.Inside g f) :
    Follows (lambda env args span) s (Resolution.lambda env p args span) := by
  unfold lambda
  split
  · next params vector body =>
    have hbody := (List.forall_mem_cons.1 hargs).2
    rw [Resolution.lambda]
    refine (Follows.lift (Resolution.uses_targets _ _ _)).bind ?_
    cases hnames : (Resolution.targets .lambda [] params).value with
    | none => exact .pure _
    | some names =>
      have hbindable := (Resolution.targets_some hnames).2
      have hkeys : ((names.map fun n => (n, ())).map (·.1)).Nodup := by
        simpa [List.map_map, Function.comp_def] using hbindable.nodup
      obtain ⟨scope, hscope, hlookup⟩ := Scope.ofEntries_ok hkeys
      have hbody' := all_follows_inside ih (h.enter hlookup) hbody
      generalize hr : Resolution.all env (p.enter names) body = r at hbody'
      rw [Follows] at hbody'
      simp only [hscope, Resolution.uses_targets, Stacks.record_nil, hr]
      change Resolved.bind ((all env body).run (s.enter scope)) (fun body =>
        Pure.pure (Node.lambda (.mk names (sortNames body.2.leave.1) body.1 span), body.2.leave.2)) = _
      rw [hbody', Resolved.bind]
      dsimp only
      rw [Stacks.leave_record h, ← hr]
      simp only [Resolved.value_bind, Resolved.errors_bind, Resolved.uses_bind,
        Resolved.value_withUses, Resolved.errors_withUses, Resolved.uses_withUses,
        Resolved.value_pure, Resolved.errors_pure, Resolved.uses_pure, List.append_nil, captures]
  · next hno =>
    rw [Resolution.lambda]
    · exact .lift rfl
    · exact hno

theorem list_follows (h : s.Shows p) {items : List Form} (hf : f = .group .round items span) :
    Follows (list env items span) s (Resolution.list env p items span) := by
  have hitems : ∀ g ∈ items, Tree.Inside g f := fun g hg => hf ▸ .item hg .self
  cases items with
  | nil => exact .pure _
  | cons head args =>
    obtain ⟨hhead, hargs⟩ := List.forall_mem_cons.1 hitems
    have hall : ∀ s : Stacks, s.Shows p → Follows (all env args) s (Resolution.all env p args) :=
      fun s hs => all_follows_inside ih hs hargs
    have hliteral : ∀ r, r.uses = [] → Follows (do let _ ← all env args; liftM r) s
        (do let _ ← Resolution.all env p args; r : Resolved Node) :=
      fun r hr => (hall s h).bind (.lift hr)
    rw [list.eq_def, Resolution.list.eq_def]
    cases head with
    | leaf a headSpan =>
      cases a with
      | symbol x =>
        dsimp only
        cases SpecialForm.ofName? x with
        | some special =>
          cases special with
          | block => exact (hall s h).bind (.pure _)
          | allOf => exact (hall s h).bind (.pure _)
          | anyOf => exact (hall s h).bind (.pure _)
          | quotation => exact .lift (Resolution.uses_quotation _ _)
          | branch => exact branch_follows ih h hargs
          | bind => exact bindForm_follows ih h hargs
          | lambda => exact lambda_follows ih h hargs
        | none =>
          dsimp only
          rw [h.locals x]
          refine .look ?_
          rw [Scopes.lookup]
          cases s.scopes.locate x with
          | some found =>
            exact (symbol_follows h x headSpan).bind ((hall _ (h.record _)).bind (.pure _))
          | none => exact (hall s h).bind (.lift (Resolution.uses_globalCall _ _ _ _ _))
      | _ => exact hliteral _ rfl
    | group bracket inner innerSpan =>
      cases bracket with
      | round => exact (ih _ hhead s p h).bind ((hall _ (h.record _)).bind (.pure _))
      | square => exact hliteral _ rfl

end Parts

/-- From the stacks of a place the walk does to a form what resolution does to it at the place. The
induction is on the nesting of the form. -/
theorem form_follows (h : s.Shows p) (f : Form) :
    Follows (form env f) s (Resolution.form env p f) := by
  induction hd : Tree.depth f using Nat.strongRecOn generalizing f s p with
  | ind d ih =>
    subst hd
    have ih' : ∀ g, Tree.Inside g f → ∀ s p, Stacks.Shows s p →
        Follows (form env g) s (Resolution.form env p g) :=
      fun g hg s p hs => ih _ hg.depth_lt hs g rfl
    cases f with
    | leaf a span =>
      cases a with
      | symbol x =>
        rw [form, Resolution.form]
        exact symbol_follows h x span
      | _ => exact .pure _
    | group bracket items span =>
      cases bracket with
      | square =>
        rw [form, Resolution.form]
        exact (all_follows_inside ih' h fun g hg => .item hg .self).bind (.pure _)
      | round =>
        rw [form, Resolution.form]
        exact list_follows ih' h rfl

theorem all_follows (h : s.Shows p) (fs : List Form) :
    Follows (all env fs) s (Resolution.all env p fs) := by
  induction fs generalizing s with
  | nil =>
    rw [all, Resolution.all]
    exact .pure _
  | cons f fs ih =>
    rw [all, Resolution.all]
    exact (form_follows h f).bind ((ih (h.record _)).bind (.pure _))

end Walk

end Scriptlet
