/-
# AdManager.Lib.Interference — calls inserted into the runs of a system.

A system takes steps, and from outside functions are called on its state, between any two steps. A call
may leave the state as it is, change it, or fault (`none`). The question is one about two runs: is the
run with the calls the same as the run without them, as far as a relation `R` on states and what `f`
shows of the steps can tell? For calls whose effect `R` sees at once the answer is exact
(`undisturbed_iff`): the two runs are the same at every point if and only if every call *finds* what it
looks for, that is, leaves the state as it is.
-/
import AdManager.Lib.Run

namespace AdManager.Lib

variable {σ ε ρ τ : Type*}

/-- A state of the system, and whether a call has faulted. -/
structure Called (σ : Type*) where
  state : σ
  faulted : Bool := false

/-- A step of the system or a call; after a fault there is neither. -/
def calledStep (step : σ → ε → Option σ) (call : σ → ρ → Option σ) (t : Called σ) :
    ε ⊕ ρ → Option (Called σ)
  | .inl e => if t.faulted then none else (step t.state e).map fun s => { state := s }
  | .inr r =>
      if t.faulted then none
      else
        match call t.state r with
        | some s => some { state := s }
        | none => some { t with faulted := true }

/-- What `f` shows of the steps. -/
def shown (f : σ → ε → Option τ) (t : Called σ) : ε ⊕ ρ → Option τ
  | .inl e => f t.state e
  | .inr _ => none

/-- What is asked of the calls, and nothing of the steps. -/
def OnCalls (P : σ → ρ → Prop) (t : Called σ) : ε ⊕ ρ → Prop
  | .inl _ => True
  | .inr r => P t.state r

instance (P : σ → ρ → Prop) [∀ s r, Decidable (P s r)] (t : Called σ) :
    (e : ε ⊕ ρ) → Decidable (OnCalls P t e)
  | .inl _ => .isTrue trivial
  | .inr r => inferInstanceAs (Decidable (P t.state r))

/-- **The calls among `es` do not interfere**: at every point no call has faulted, the state is the one
of the run without the calls as far as `R` can tell, and `f` has shown the same. -/
def Undisturbed (step : σ → ε → Option σ) (call : σ → ρ → Option σ) (R : σ → σ → Prop)
    (f : σ → ε → Option τ) (s : σ) (es : List (ε ⊕ ρ)) : Prop :=
  ∀ pre post, es = pre ++ post → ∃ t u,
    run (calledStep step call) { state := s } pre = some t ∧ t.faulted = false ∧
    run step s (pre.filterMap Sum.getLeft?) = some u ∧ R t.state u ∧
    observe (calledStep step call) (shown f) { state := s } pre =
      observe step f s (pre.filterMap Sum.getLeft?)

section

variable {step : σ → ε → Option σ} {call : σ → ρ → Option σ} {R : σ → σ → Prop}
  {f : σ → ε → Option τ} {P : σ → ρ → Prop} {s u : σ} {es : List (ε ⊕ ρ)}

theorem Undisturbed.left {fs : List (ε ⊕ ρ)} (h : Undisturbed step call R f s (es ++ fs)) :
    Undisturbed step call R f s es := by
  intro pre post hes
  exact h pre (post ++ fs) (by rw [hes, List.append_assoc])

/-- **Calls that find what they look for leave the run as it is.** -/
theorem called_run (hfinds : ∀ s r, P s r → call s r = some s)
    (h : run step s (es.filterMap Sum.getLeft?) = some u)
    (hP : EveryStep (calledStep step call) (OnCalls P) { state := s } es) :
    run (calledStep step call) { state := s } es = some { state := u } ∧
      observe (calledStep step call) (shown f) { state := s } es =
        observe step f s (es.filterMap Sum.getLeft?) := by
  induction es using List.reverseRecOn generalizing u with
  | nil =>
      obtain rfl := Option.some.inj h
      exact ⟨rfl, rfl⟩
  | append_singleton es e ih =>
      rw [filterMap_concat] at h
      cases e with
      | inl e =>
          obtain ⟨v, hv, hs⟩ := run_snoc.mp h
          obtain ⟨hrun, hobs⟩ := ih hv hP.left
          have hstep : calledStep step call { state := v } (.inl e) = some { state := u } := by
            simp [calledStep, hs]
          refine ⟨run_snoc.mpr ⟨_, hrun, hstep⟩, ?_⟩
          rw [observe_concat hrun hstep, hobs, filterMap_concat]
          exact (observe_concat hv hs).symm
      | inr r =>
          rw [Sum.getLeft?_inr, Option.toList_none, List.append_nil] at h
          obtain ⟨hrun, hobs⟩ := ih h hP.left
          have hcall : call u r = some u := hfinds u r (hP.last hrun)
          have hstep : calledStep step call { state := u } (.inr r : ε ⊕ ρ) = some { state := u } := by
            simp [calledStep, hcall]
          refine ⟨run_snoc.mpr ⟨_, hrun, hstep⟩, ?_⟩
          rw [observe_concat hrun hstep, hobs, filterMap_concat, Sum.getLeft?_inr, Option.toList_none,
            List.append_nil]
          exact List.append_nil _

/-- **Exactly when calls do not interfere.** `R` is reflexive, a call that finds what it looks for
changes nothing, and one that does not either faults or makes a change that `R` sees. -/
theorem undisturbed_iff (hrefl : ∀ s, R s s) (hfinds : ∀ s r, P s r → call s r = some s)
    (hbreaks : ∀ s r s', call s r = some s' → R s' s → P s r)
    (h : run step s (es.filterMap Sum.getLeft?) = some u) :
    Undisturbed step call R f s es ↔ EveryStep (calledStep step call) (OnCalls P) { state := s } es := by
  constructor
  · intro hsame
    induction es using List.reverseRecOn generalizing u with
    | nil => exact everyStep_nil
    | append_singleton es e ih =>
        obtain ⟨v, hv, _⟩ := run_append_eq_some.mp ((List.filterMap_append (f := Sum.getLeft?)) ▸ h)
        have hP := ih hv hsame.left
        obtain ⟨hrun, _⟩ := called_run (f := f) hfinds hv hP
        apply hP.concat hrun
        cases e with
        | inl e => trivial
        | inr r =>
            -- the run without the calls stays where it is
            obtain ⟨t, w, ht, hfault, hw, hR, _⟩ := hsame (es ++ [.inr r]) [] (List.append_nil _).symm
            rw [filterMap_concat, Sum.getLeft?_inr, Option.toList_none, List.append_nil] at hw
            obtain rfl : v = w := Option.some.inj (hv.symm.trans hw)
            obtain ⟨t', ht', hstep⟩ := run_snoc.mp ht
            obtain rfl : { state := v } = t' := Option.some.inj (hrun.symm.trans ht')
            simp only [calledStep, Bool.false_eq_true, if_false] at hstep
            split at hstep
            · next s' hcall =>
                obtain rfl := Option.some.inj hstep
                exact hbreaks v r s' hcall hR
            · obtain rfl := Option.some.inj hstep
              exact absurd hfault (by simp)
  · intro hP pre post hes
    subst hes
    obtain ⟨v, hv, _⟩ := run_append_eq_some.mp ((List.filterMap_append (f := Sum.getLeft?)) ▸ h)
    obtain ⟨hrun, hobs⟩ := called_run (f := f) hfinds hv hP.left
    exact ⟨{ state := v }, v, hrun, rfl, hv, hrefl v, hobs⟩

end

end AdManager.Lib
