/-
# AdManager.Lib.Simulation — a system that does what a more abstract one can do.

`Simulates` is forward simulation for step functions. A step of the concrete system from a state related to
an abstract one is a run of the abstract system, of no event or of several, and ends in related states. By
induction over the concrete run every state it reaches is related to one that the abstract system reaches
(`Simulates.run`), so what holds in all abstract runs, and is told from the relation, holds in the concrete
ones.

The steps may have to meet a condition. A condition on the states that holds at the end of a run, and that no
step can bring about, has held all along (`everyStep_of_last`).
-/
import AdManager.Lib.Run

namespace AdManager.Lib

variable {σ τ ε φ : Type*}

/-- **Forward simulation**: from related states, a step that meets `C` is an abstract run to related
states. -/
def Simulates (step : σ → ε → Option σ) (C : σ → ε → Prop) (abstractStep : τ → φ → Option τ)
    (R : σ → τ → Prop) : Prop :=
  ∀ s e s' t, R s t → C s e → step s e = some s' →
    ∃ fs t', run abstractStep t fs = some t' ∧ R s' t'

variable {step : σ → ε → Option σ} {C D : σ → ε → Prop} {abstractStep : τ → φ → Option τ}
  {R : σ → τ → Prop} {s s' : σ} {t : τ} {es : List ε}

/-- **A run of the concrete system is one of the abstract system.** -/
theorem Simulates.run (hsim : Simulates step C abstractStep R) (h : R s t)
    (hrun : Lib.run step s es = some s') (hC : EveryStep step C s es) :
    ∃ fs t', Lib.run abstractStep t fs = some t' ∧ R s' t' := by
  refine inv_run_of_everyStep (I := fun s => ∃ fs t', Lib.run abstractStep t fs = some t' ∧ R s t')
    ⟨[], t, rfl, h⟩ ?_ hrun hC
  rintro u e u' ⟨fs, t₁, hfs, hR⟩ hCe hs
  obtain ⟨gs, t₂, hgs, hR'⟩ := hsim u e u' t₁ hR hCe hs
  exact ⟨fs ++ gs, t₂, run_append_eq_some.mpr ⟨t₁, hfs, hgs⟩, hR'⟩

/-- No step is an abstract run of no event. -/
theorem abstract_stutter {P : τ → Prop} (h : P t) :
    ∃ fs t', Lib.run abstractStep t fs = some t' ∧ P t' :=
  ⟨[], t, rfl, h⟩

/-- A step of the abstract system is an abstract run. -/
theorem abstract_step {P : τ → Prop} {f : φ} {t' : τ} (hs : abstractStep t f = some t') (h : P t') :
    ∃ fs t', Lib.run abstractStep t fs = some t' ∧ P t' :=
  ⟨[f], t', (run_singleton abstractStep t f).trans hs, h⟩

/-! ## Conditions on the steps -/

theorem EveryStep.and (hC : EveryStep step C s es) (hD : EveryStep step D s es) :
    EveryStep step (fun s e => C s e ∧ D s e) s es :=
  fun pre e post t hes ht => ⟨hC pre e post t hes ht, hD pre e post t hes ht⟩

/-- What no step brings about was there before if it is there in the end. -/
theorem everyStep_of_last {P : σ → Prop} (hback : ∀ s e s', step s e = some s' → P s' → P s)
    (hrun : Lib.run step s es = some s') (h : P s') : EveryStep step (fun s _ => P s) s es := by
  intro pre e post t hes ht
  subst hes
  obtain ⟨u, hu, hpost⟩ := run_append_eq_some.mp hrun
  obtain rfl := Option.some.inj (ht.symm.trans hu)
  -- backwards through the rest of the run
  have hall : ∀ (fs : List ε) (v : σ), Lib.run step v fs = some s' → P v := by
    intro fs
    induction fs with
    | nil =>
        intro v hv
        obtain rfl := Option.some.inj hv
        exact h
    | cons f fs ih =>
        intro v hv
        obtain ⟨w, hw, hrest⟩ := run_cons_eq_some.mp hv
        exact hback v f w hw (ih w hrest)
  exact hall (e :: post) t hpost

end AdManager.Lib
