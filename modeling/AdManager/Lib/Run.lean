/-
# AdManager.Lib.Run — runs of a partial step function, and the induction rules over them.

A component is a step function `σ → ε → Option σ`: an event is an input of the outside world or a
scheduling choice, and `none` says that the event cannot happen in that state. `run` folds it over a
list of events, so a run is a finite history and a reachable state is the end of one. Everything a
development proves about histories comes from four rules below: induction at the last event
(`run_induction`), an invariant kept by every step (`inv_run`), an invariant kept by the steps that
meet a condition (`inv_run_of_everyStep`), and the exact form of the last one, where a property of
all states visited is *equivalent* to a condition on all steps taken (`everyState_iff_everyStep`).
`run_filterMap` takes a run of a system to the run of one of its parts.
-/
import Mathlib.Data.List.Induction

namespace AdManager.Lib

variable {σ τ ε φ : Type*}

/-! ## Runs -/

/-- The state after the events `es`, from `s`; `none` when some event was not enabled. -/
def run (step : σ → ε → Option σ) (s : σ) (es : List ε) : Option σ := es.foldlM step s

variable {step : σ → ε → Option σ} {s s' : σ} {es fs : List ε} {e : ε}

@[simp] theorem run_nil : run step s [] = some s := rfl

theorem run_append (step : σ → ε → Option σ) (s : σ) (es fs : List ε) :
    run step s (es ++ fs) = (run step s es).bind fun t => run step t fs := by
  simp only [run, List.foldlM_append]
  rfl

theorem run_append_eq_some :
    run step s (es ++ fs) = some s' ↔ ∃ t, run step s es = some t ∧ run step t fs = some s' := by
  rw [run_append, Option.bind_eq_some_iff]

theorem run_singleton (step : σ → ε → Option σ) (s : σ) (e : ε) : run step s [e] = step s e := by
  simp [run]

theorem run_cons_eq_some :
    run step s (e :: es) = some s' ↔ ∃ t, step s e = some t ∧ run step t es = some s' := by
  rw [← List.singleton_append, run_append_eq_some, run_singleton]

/-- A run ends with its last step. -/
theorem run_snoc :
    run step s (es ++ [e]) = some s' ↔ ∃ t, run step s es = some t ∧ step t e = some s' := by
  rw [run_append_eq_some]
  simp only [run_singleton]

/-! ## Induction over runs -/

/-- Induction on a run at its last event. -/
theorem run_induction {P : List ε → σ → Prop} (hnil : P [] s)
    (hsnoc : ∀ es e t t', run step s es = some t → P es t → step t e = some t' → P (es ++ [e]) t')
    (h : run step s es = some s') : P es s' := by
  induction es using List.reverseRecOn generalizing s' with
  | nil =>
      simp only [run_nil, Option.some.injEq] at h
      exact h ▸ hnil
  | append_singleton es e ih =>
      obtain ⟨t, ht, hstep⟩ := run_snoc.mp h
      exact hsnoc es e t s' ht (ih ht) hstep

/-- An invariant that every step keeps holds at the end of every run. -/
theorem inv_run {I : σ → Prop} (h0 : I s) (hstep : ∀ t e t', I t → step t e = some t' → I t')
    (h : run step s es = some s') : I s' :=
  run_induction (P := fun _ t => I t) h0 (fun _ e t t' _ ih he => hstep t e t' ih he) h

/-! ## Properties of all states and conditions on all steps of a run -/

/-- Every state visited by the run of `es` from `s` satisfies `P`. -/
def EveryState (step : σ → ε → Option σ) (P : σ → Prop) (s : σ) (es : List ε) : Prop :=
  ∀ pre post t, es = pre ++ post → run step s pre = some t → P t

/-- Every step of the run of `es` from `s` meets `C`, a condition on the event and on the state
before it. -/
def EveryStep (step : σ → ε → Option σ) (C : σ → ε → Prop) (s : σ) (es : List ε) : Prop :=
  ∀ pre e post t, es = pre ++ e :: post → run step s pre = some t → C t e

theorem EveryState.last {P : σ → Prop} (h : EveryState step P s es) (hs : run step s es = some s') :
    P s' :=
  h es [] s' (List.append_nil es).symm hs

theorem EveryStep.left {C : σ → ε → Prop} (h : EveryStep step C s (es ++ fs)) :
    EveryStep step C s es := by
  intro pre e post t hes ht
  exact h pre e (post ++ fs) t (by rw [hes, List.append_assoc, List.cons_append]) ht

theorem EveryStep.last {C : σ → ε → Prop} (h : EveryStep step C s (es ++ [e]))
    (ht : run step s es = some s') : C s' e :=
  h es e [] s' rfl ht

/-- One more step that meets the condition. -/
theorem EveryStep.concat {C : σ → ε → Prop} (h : EveryStep step C s es) (ht : run step s es = some s')
    (he : C s' e) : EveryStep step C s (es ++ [e]) := by
  intro pre e' post u hes hu
  rcases List.eq_nil_or_concat post with rfl | ⟨post, e'', rfl⟩
  · obtain ⟨rfl, heq⟩ := List.append_inj' hes rfl
    obtain rfl : e = e' := by simpa using heq
    obtain rfl : s' = u := Option.some.inj (ht.symm.trans hu)
    exact he
  · rw [List.concat_eq_append, ← List.cons_append, ← List.append_assoc] at hes
    obtain ⟨hes', _⟩ := List.append_inj' hes rfl
    exact h pre e' post u hes' hu

theorem everyStep_nil {C : σ → ε → Prop} : EveryStep step C s [] := by
  intro pre e post t hes _
  simp at hes

/-- A condition on all steps, by the first step of the run. -/
theorem everyStep_cons {C : σ → ε → Prop} :
    EveryStep step C s (e :: es) ↔ C s e ∧ ∀ t, step s e = some t → EveryStep step C t es := by
  constructor
  · intro h
    refine ⟨h [] e es s rfl rfl, ?_⟩
    intro t ht pre e' post u hes hu
    exact h (e :: pre) e' post u (by rw [hes, List.cons_append]) (run_cons_eq_some.mpr ⟨t, ht, hu⟩)
  · rintro ⟨he, hrest⟩ pre e' post u hes hu
    cases pre with
    | nil =>
        obtain ⟨rfl, rfl⟩ := List.cons.inj hes
        obtain rfl := Option.some.inj hu
        exact he
    | cons e'' pre =>
        obtain ⟨rfl, htail⟩ := List.cons.inj hes
        obtain ⟨t, ht, hu⟩ := run_cons_eq_some.mp hu
        exact hrest t ht pre e' post u htail hu

/-- Whether all steps of a run meet `C`, computed along the run. -/
def stepsMeet (step : σ → ε → Option σ) (C : σ → ε → Prop) [∀ s e, Decidable (C s e)] :
    σ → List ε → Bool
  | _, [] => true
  | s, e :: es =>
      decide (C s e) &&
        match step s e with
        | none => true
        | some t => stepsMeet step C t es

theorem stepsMeet_iff {C : σ → ε → Prop} [∀ s e, Decidable (C s e)] :
    stepsMeet step C s es = true ↔ EveryStep step C s es := by
  induction es generalizing s with
  | nil => exact ⟨fun _ => everyStep_nil, fun _ => rfl⟩
  | cons e es ih =>
      rw [everyStep_cons, stepsMeet, Bool.and_eq_true, decide_eq_true_eq]
      refine and_congr_right fun _ => ?_
      cases hs : step s e with
      | none => simp
      | some t => simpa using ih

instance {C : σ → ε → Prop} [∀ s e, Decidable (C s e)] : Decidable (EveryStep step C s es) :=
  decidable_of_iff _ stepsMeet_iff

/-- An invariant that every step meeting `C` keeps holds at the end of every run all of whose steps
meet `C`. -/
theorem inv_run_of_everyStep {I : σ → Prop} {C : σ → ε → Prop} (h0 : I s)
    (hstep : ∀ t e t', I t → C t e → step t e = some t' → I t')
    (h : run step s es = some s') (hC : EveryStep step C s es) : I s' := by
  refine run_induction (P := fun es t => EveryStep step C s es → I t) (fun _ => h0) ?_ h hC
  intro es e t t' ht ih he hC'
  exact hstep t e t' (ih hC'.left) (hC'.last ht) he

/-- Two conditions that agree on the steps taken from invariant states agree on runs. -/
theorem everyStep_congr {I : σ → Prop} {C D : σ → ε → Prop} (h0 : I s)
    (hstep : ∀ t e t', I t → step t e = some t' → I t')
    (hCD : ∀ t e t', I t → step t e = some t' → (C t e ↔ D t e))
    (h : run step s es = some s') : EveryStep step C s es ↔ EveryStep step D s es := by
  have hpoint : ∀ pre e post t, es = pre ++ e :: post → run step s pre = some t → (C t e ↔ D t e) := by
    intro pre e post t hes ht
    rw [hes] at h
    obtain ⟨u, hu, hrest⟩ := run_append_eq_some.mp h
    obtain rfl : t = u := Option.some.inj (ht.symm.trans hu)
    obtain ⟨t', ht', _⟩ := run_cons_eq_some.mp hrest
    exact hCD t e t' (inv_run h0 hstep ht) ht'
  constructor
  · intro hC pre e post t hes ht
    exact (hpoint pre e post t hes ht).mp (hC pre e post t hes ht)
  · intro hD pre e post t hes ht
    exact (hpoint pre e post t hes ht).mpr (hD pre e post t hes ht)

/-- **The exact rule.** `I` is an invariant that implies `P` and that the steps meeting `C` keep; a
step from an invariant state that breaks `C` also breaks `P`. Then a run stays in `P` exactly when
all its steps meet `C`. -/
theorem everyState_iff_everyStep {I P : σ → Prop} {C : σ → ε → Prop} (h0 : I s)
    (hIP : ∀ t, I t → P t) (hkeep : ∀ t e t', I t → C t e → step t e = some t' → I t')
    (hbreak : ∀ t e t', I t → step t e = some t' → P t' → C t e)
    (h : run step s es = some s') : EveryState step P s es ↔ EveryStep step C s es := by
  constructor
  · intro hP
    induction es using List.reverseRecOn generalizing s' with
    | nil => intro pre e post t hes _; simp at hes
    | append_singleton es e ih =>
        obtain ⟨t, ht, hte⟩ := run_snoc.mp h
        have hes : EveryStep step C s es :=
          ih ht fun pre post u hu hr => hP pre (post ++ [e]) u (by rw [hu, List.append_assoc]) hr
        have hI : I t := inv_run_of_everyStep h0 hkeep ht hes
        exact hes.concat ht (hbreak t e s' hI hte (hP (es ++ [e]) [] s' (by simp) h))
  · intro hC pre post t hes ht
    refine hIP t (inv_run_of_everyStep h0 hkeep ht ?_)
    exact EveryStep.left (hes ▸ hC)

/-! ## Fewer steps -/

/-- A run whose steps are all steps of another system is a run of that system. -/
theorem run_of_step {step₂ : σ → ε → Option σ}
    (hsub : ∀ e ∈ es, ∀ t t', step t e = some t' → step₂ t e = some t') (h : run step s es = some s') :
    run step₂ s es = some s' := by
  induction es generalizing s with
  | nil => exact h
  | cons e es ih =>
      obtain ⟨t, ht, hrest⟩ := run_cons_eq_some.mp h
      refine run_cons_eq_some.mpr ⟨t, hsub e List.mem_cons_self s t ht, ih ?_ hrest⟩
      intro e' he'
      exact hsub e' (List.mem_cons_of_mem e he')

/-- What its steps meet, they meet there too. -/
theorem everyStep_of_step {step₂ : σ → ε → Option σ} {C : σ → ε → Prop}
    (hsub : ∀ e ∈ es, ∀ t t', step t e = some t' → step₂ t e = some t') (h : run step s es = some s')
    (hC : EveryStep step C s es) : EveryStep step₂ C s es := by
  intro pre e post t hes ht
  subst hes
  obtain ⟨u, hu, _⟩ := run_append_eq_some.mp h
  have hu₂ := run_of_step (fun e he => hsub e (List.mem_append_left _ he)) hu
  obtain rfl : u = t := Option.some.inj (hu₂.symm.trans ht)
  exact hC pre e post u rfl hu

/-! ## What a run shows -/

/-- What `f` shows of the steps of a run, in order. -/
def observe (step : σ → ε → Option σ) (f : σ → ε → Option τ) : σ → List ε → List τ
  | _, [] => []
  | s, e :: es =>
      match step s e with
      | none => []
      | some t => (f s e).toList ++ observe step f t es

theorem observe_append {f : σ → ε → Option τ} (h : run step s es = some s') (fs : List ε) :
    observe step f s (es ++ fs) = observe step f s es ++ observe step f s' fs := by
  induction es generalizing s with
  | nil =>
      obtain rfl := Option.some.inj h
      rfl
  | cons e es ih =>
      obtain ⟨t, ht, hrest⟩ := run_cons_eq_some.mp h
      simp only [List.cons_append, observe, ht, ih hrest, List.append_assoc]

/-- A step shows what it shows after all that was shown before. -/
theorem observe_concat {f : σ → ε → Option τ} {t : σ} (h : run step s es = some s')
    (he : step s' e = some t) : observe step f s (es ++ [e]) = observe step f s es ++ (f s' e).toList := by
  rw [observe_append h]
  simp only [observe, he, List.append_nil]

/-! ## Steps that come to an end -/

/-- **Steps that decrease a measure come to an end.** From every state a run of such steps reaches
a state in which none of them can happen. -/
theorem exists_quiescent {D : ε → Prop} (μ : σ → Nat)
    (hdec : ∀ t e t', D e → step t e = some t' → μ t' < μ t) (s : σ) :
    ∃ es t, (∀ e ∈ es, D e) ∧ run step s es = some t ∧ ∀ e, D e → step t e = none := by
  induction h : μ s using Nat.strongRecOn generalizing s with
  | ind n ih =>
      by_cases hstuck : ∀ e, D e → step s e = none
      · exact ⟨[], s, by simp, rfl, hstuck⟩
      · simp only [not_forall, ← ne_eq, Option.ne_none_iff_exists'] at hstuck
        obtain ⟨e, hD, t, ht⟩ := hstuck
        obtain ⟨es, u, hes, hu, hend⟩ := ih (μ t) (h ▸ hdec s e t hD ht) t rfl
        refine ⟨e :: es, u, ?_, run_cons_eq_some.mpr ⟨t, ht, hu⟩, hend⟩
        intro e' he'
        rcases List.mem_cons.mp he' with rfl | he'
        · exact hD
        · exact hes e' he'

/-! ## Projection -/

theorem filterMap_concat {α β : Type*} (f : α → Option β) (l : List α) (a : α) :
    (l ++ [a]).filterMap f = l.filterMap f ++ (f a).toList := by
  rw [List.filterMap_append]
  cases h : f a <;> simp [h]

/-- A run of a system is a run of one of its parts, if every step of the system is a step of the part
or leaves the part alone. -/
theorem run_filterMap {step₂ : τ → φ → Option τ} {f : σ → τ} {g : ε → Option φ}
    (hpart : ∀ t e t', step t e = some t' → ∀ e', g e = some e' → step₂ (f t) e' = some (f t'))
    (hother : ∀ t e t', step t e = some t' → g e = none → f t' = f t)
    (h : run step s es = some s') : run step₂ (f s) (es.filterMap g) = some (f s') := by
  refine run_induction (P := fun es t => run step₂ (f s) (es.filterMap g) = some (f t)) rfl ?_ h
  intro es e t t' _ ih he
  rw [List.filterMap_append]
  cases hg : g e with
  | none => simp [hg, ih, hother t e t' he hg]
  | some e' =>
      simp only [hg, List.filterMap_cons, List.filterMap_nil]
      exact run_snoc.mpr ⟨f t, ih, hpart t e t' he e' hg⟩

end AdManager.Lib
