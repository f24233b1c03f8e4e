import Scriptlet.Proofs.Reference.Equivalence

/-!
Evaluations one after the other, each of which may use what those before it have returned. Every
value that there is in a session has a counterpart in the reference interpreter, so the next
evaluation can be compared as well.
-/

namespace Scriptlet

/-- One evaluation in a session. -/
structure Job where
  artifact : Artifact
  limits : Limits
  binding : Binding

/-- Values that there are after some jobs, the newest first: data, native functions, and what the
jobs have returned. A job is numbered by how many there were before it. -/
inductive Yields (host : Host) : List Job → Value → Prop where
  | atom {jobs v} (h : v.isAtom) : Yields host jobs v
  | list {jobs vs} (h : ∀ v ∈ vs, Yields host jobs v) : Yields host jobs (.list vs)
  | item {jobs vs v} (h : Yields host jobs (.list vs)) (hv : v ∈ vs) : Yields host jobs v
  | returned {jobs v} {job : Job}
      (h : job.artifact.evaluate host jobs.length job.limits job.binding = .ok v) :
      Yields host (job :: jobs) v
  | earlier {jobs v job} (h : Yields host jobs v) : Yields host (job :: jobs) v

/-- Every job runs a compiled script, with globals and inputs that there are before it. -/
inductive Session (host : Host) : List Job → Prop where
  | nil : Session host []
  | cons {jobs} {job : Job} {e : Engine} {serial : Nat} {name source : String}
      (h : Session host jobs) (hcompile : e.compile serial name source = .ok job.artifact)
      (hglobals : ∀ x v, e.environment.get? x = some v → Yields host jobs v)
      (hinputs : ∀ x ∈ job.artifact.inputNames, ∀ v, job.binding.get? x = some v →
        Yields host jobs v) :
      Session host (job :: jobs)

namespace Reference

variable {host : Host} {jobs : List Job} {job : Job} {code : Identity → Option Code}

theorem exists_list {vs : List Value} (h : ∀ v ∈ vs, ∃ w, Sim code v w) :
    ∃ ws, List.Forall₂ (Sim code) vs ws := by
  induction vs with
  | nil => exact ⟨[], .nil⟩
  | cons v vs ih =>
    obtain ⟨w, hw⟩ := h v (by simp)
    obtain ⟨ws, hws⟩ := ih fun u hu => h u (by simp [hu])
    exact ⟨w :: ws, .cons hw hws⟩

theorem exists_item {vs : List Value} {v w : Value} (h : Sim code (.list vs) w) (hv : v ∈ vs) :
    ∃ u, Sim code v u := by
  cases (Sim.likeness code).shape h with
  | atom ha => cases ha
  | list hs =>
    obtain ⟨i, hi⟩ := List.mem_iff_getElem?.1 hv
    obtain ⟨hsome, hrel⟩ := rel_iff.1 (getElem?_rel hs i)
    rw [hi] at hsome
    obtain ⟨u, hu⟩ := Option.isSome_iff_exists.1 hsome.symm
    exact ⟨u, hrel v u hi hu⟩

/-- Every value is made of what the last job has returned and of values that there were before. -/
theorem exists_yields
    (hlast : ∀ job rest, jobs = job :: rest → (∀ v, Yields host rest v → ∃ w, Sim code v w) ∧
      ∀ v, job.artifact.evaluate host rest.length job.limits job.binding = .ok v →
        ∃ w, Sim code v w)
    {v : Value} (h : Yields host jobs v) : ∃ w, Sim code v w := by
  induction h with
  | atom ha => exact ⟨_, .atom ha⟩
  | list _ ih =>
    obtain ⟨ws, hws⟩ := exists_list fun v hv => ih v hv hlast
    exact ⟨.list ws, .of_forall₂ hws⟩
  | item _ hv ih =>
    obtain ⟨w, hw⟩ := ih hlast
    exact exists_item hw hv
  | returned h => exact (hlast _ _ rfl).2 _ h
  | earlier h => exact (hlast _ _ rfl).1 _ h

/-- Names whose values have counterparts can be given these. -/
theorem exists_names (values : String → Option Value)
    (h : ∀ x v, values x = some v → ∃ w, Sim code v w) :
    ∃ names : String → Option Value, ∀ x, Option.Rel (Sim code) (values x) (names x) := by
  refine Classical.skolem.1 fun x => ?_
  cases hx : values x with
  | none => exact ⟨none, .none⟩
  | some v =>
    obtain ⟨w, hw⟩ := h x v hx
    exact ⟨some w, .some hw⟩

/-- What a job returns has a counterpart, once the code of the closures that it has made is there. -/
theorem exists_returned (hblind : host.Blind 0) {e : Engine} {serial : Nat} {name source : String}
    (hcompile : e.compile serial name source = .ok job.artifact) {number : Nat}
    (hfresh : ∀ d, code ⟨number, d⟩ = none)
    (hglobals : ∀ x v, e.environment.get? x = some v → ∃ w, Sim code v w)
    (hinputs : ∀ x ∈ job.artifact.inputNames, ∀ v, job.binding.get? x = some v → ∃ w, Sim code v w)
    {v : Value} (hv : job.artifact.evaluate host number job.limits job.binding = .ok v) :
    ∃ code' w, Extends number code code' ∧ Sim code' v w := by
  obtain ⟨parsed, nodes, uses, _, _, ha⟩ := Engine.compile_ok hcompile
  have hmissing := Artifact.missing?_eq_none.1 (Artifact.missing?_of_ok hv)
  obtain ⟨globals, hglobals⟩ := exists_names e.environment.get? hglobals
  let inputs (x : String) := if x ∈ job.artifact.inputNames then job.binding.get? x else none
  have hcounterparts : ∀ x v, inputs x = some v → ∃ w, Sim code v w := by
    intro x v hx
    by_cases hmem : x ∈ job.artifact.inputNames
    · exact hinputs x hmem v ((if_pos hmem).symm.trans hx)
    · exact nomatch (if_neg hmem).symm.trans hx
  obtain ⟨binding, hbinding⟩ := exists_names inputs hcounterparts
  have hsupplied : ∀ x ∈ job.artifact.inputNames, ∃ v w, job.binding.get? x = some v ∧
      binding x = some w ∧ Sim code v w := by
    intro x hx
    obtain ⟨v, hv⟩ := Option.isSome_iff_exists.1 (hmissing x hx)
    obtain ⟨hsome, hrel⟩ := rel_iff.1 (hbinding x)
    have hinput : inputs x = some v := (if_pos hx).trans hv
    rw [hinput] at hsome
    obtain ⟨w, hw⟩ := Option.isSome_iff_exists.1 hsome.symm
    exact ⟨v, w, hv, hw, hrel v w hinput hw⟩
  have hregular : ∀ err, job.artifact.evaluate host number job.limits job.binding = .error err →
      err.failure.isResource = false := by
    intro err herr
    rw [hv] at herr
    cases herr
  have houtcome := evaluate_outcome ha hblind hfresh hglobals hsupplied True job.limits
    (job.limits.depth + 1) (fun h => absurd trivial h) (fun _ => ⟨Nat.lt_succ_self _, hregular⟩)
    fun h => absurd trivial h
  rw [hv] at houtcome
  obtain ⟨w, _, he, hw⟩ := houtcome.of_ok
  exact ⟨_, w, he, hw⟩

end Reference

open Reference in
/-- The reference interpreter has a counterpart of every value in a session, and no code yet for the
closures of the jobs to come. -/
theorem Session.represented {host : Host} (hblind : host.Blind 0) {jobs : List Job}
    (h : Session host jobs) :
    ∃ code : Identity → Option Code, (∀ i : Identity, jobs.length ≤ i.maker → code i = none) ∧
      ∀ v, Yields host jobs v → ∃ w, Sim code v w := by
  induction h with
  | nil => exact ⟨fun _ => none, fun _ _ => rfl, fun v hv => exists_yields (by simp) hv⟩
  | @cons jobs job e serial name source _ hcompile hglobals hinputs ih =>
    obtain ⟨code, hfresh, hrepresented⟩ := ih
    cases hresult : job.artifact.evaluate host jobs.length job.limits job.binding with
    | error err =>
      refine ⟨code, fun i hi => hfresh i (Nat.le_of_succ_le hi), fun v hv => ?_⟩
      refine exists_yields (fun job' rest hall => ?_) hv
      cases hall
      exact ⟨hrepresented, fun v hv => by rw [hresult] at hv; cases hv⟩
    | ok u =>
      obtain ⟨code', w, he, hw⟩ := exists_returned hblind hcompile
        (fun d => hfresh _ (Nat.le_refl _)) (fun x v hv => hrepresented v (hglobals x v hv))
        (fun x hx v hv => hrepresented v (hinputs x hx v hv)) hresult
      refine ⟨code', fun i hi => ?_, fun v hv => ?_⟩
      · rw [he.others i (Nat.ne_of_gt hi)]
        exact hfresh i (Nat.le_of_succ_le hi)
      · refine exists_yields (fun job' rest hall => ?_) hv
        cases hall
        refine ⟨fun v hv => ?_, fun v hv => ?_⟩
        · obtain ⟨w, hw⟩ := hrepresented v hv
          exact ⟨w, hw.mono he⟩
        · rw [hresult] at hv
          cases hv
          exact ⟨w, hw⟩

end Scriptlet
