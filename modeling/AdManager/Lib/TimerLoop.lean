/-
# AdManager.Lib.TimerLoop — deadline timers and the queue of their handlers.

Timers in the manner of Boost.Asio, served by one thread: setting a timer's expiry cancels its waits,
and a cancelled wait's handler runs all the same. A wait or queued handler is *outstanding* until the
thread takes the handler. Setting an expiry changes nothing about how many are outstanding, so a timer
that is armed again while something is outstanding has one more from then on
(`outstanding_expiresFromNow`, `outstanding_asyncWait`); and it is the only way for a handler to be
queued before its time (`Punctual`).
-/
import Mathlib.Logic.Function.Basic
import Mathlib.Data.List.Basic

namespace AdManager.Lib

/-- A wait, for a timer that was set at `since` to expire after `delay`. -/
structure Wait where
  since : Nat
  delay : Nat
  deriving DecidableEq, Repr

/-- When the wait is over. -/
def Wait.due (w : Wait) : Nat := w.since + w.delay

/-- A queued handler of a timer; `aborted` is the error code it gets. -/
structure Fired (κ : Type*) where
  timer : κ
  wait : Wait
  aborted : Bool
  deriving DecidableEq, Repr

/-- The clock, the timers with their expiry and their waits, and the queued handlers. -/
structure TimerLoop (κ : Type*) where
  now : Nat := 0
  expiry : κ → Wait := fun _ => { since := 0, delay := 0 }
  waits : κ → List Wait := fun _ => []
  queue : List (Fired κ) := []

namespace TimerLoop

variable {κ : Type*} [DecidableEq κ]

/-! ## Operations -/

/-- Time passes. -/
def tick (l : TimerLoop κ) (n : Nat) : TimerLoop κ := { l with now := l.now + n }

/-- `expires_from_now`: the waits are cancelled, that is, their handlers are queued. -/
def expiresFromNow (l : TimerLoop κ) (t : κ) (d : Nat) : TimerLoop κ :=
  { l with
    queue := l.queue ++ (l.waits t).map fun w => { timer := t, wait := w, aborted := true }
    waits := Function.update l.waits t []
    expiry := Function.update l.expiry t { since := l.now, delay := d } }

/-- `async_wait`. -/
def asyncWait (l : TimerLoop κ) (t : κ) : TimerLoop κ :=
  { l with waits := Function.update l.waits t (l.waits t ++ [l.expiry t]) }

/-- The first wait of a timer is over: its handler is queued. -/
def fire (l : TimerLoop κ) (t : κ) : Option (TimerLoop κ) :=
  match l.waits t with
  | [] => none
  | w :: ws =>
      if w.due ≤ l.now then
        some { l with
          queue := l.queue ++ [{ timer := t, wait := w, aborted := false }]
          waits := Function.update l.waits t ws }
      else none

/-- The thread takes the first handler. -/
def take (l : TimerLoop κ) : Option (Fired κ × TimerLoop κ) :=
  match l.queue with
  | [] => none
  | f :: fs => some (f, { l with queue := fs })

/-! ## What is outstanding -/

/-- The waits and the queued handlers of a timer. -/
def outstanding (l : TimerLoop κ) (t : κ) : Nat :=
  (l.waits t).length + l.queue.countP fun f => f.timer = t

/-- No handler is queued before its time. -/
def Punctual (l : TimerLoop κ) : Prop := ∀ f ∈ l.queue, f.wait.due ≤ l.now

variable {l l' : TimerLoop κ} {t u : κ} {d n : Nat} {f : Fired κ}

/-- Setting an expiry turns waits into queued handlers. -/
@[simp] theorem outstanding_expiresFromNow :
    (l.expiresFromNow t d).outstanding u = l.outstanding u := by
  simp only [outstanding, expiresFromNow, List.countP_append, List.countP_map]
  by_cases hu : u = t
  · subst hu
    rw [Function.update_self]
    have hall : (l.waits u).countP ((fun f => decide (f.timer = u)) ∘ fun w =>
        ({ timer := u, wait := w, aborted := true } : Fired κ)) = (l.waits u).length := by
      rw [List.countP_eq_length]
      simp
    rw [hall, List.length_nil]
    omega
  · rw [Function.update_of_ne hu]
    have hnone : (l.waits t).countP ((fun f => decide (f.timer = u)) ∘ fun w =>
        ({ timer := t, wait := w, aborted := true } : Fired κ)) = 0 := by
      rw [List.countP_eq_zero]
      simp [Ne.symm hu]
    rw [hnone, Nat.add_zero]

/-- A wait is one more. -/
@[simp] theorem outstanding_asyncWait :
    (l.asyncWait t).outstanding u = l.outstanding u + if u = t then 1 else 0 := by
  simp only [outstanding, asyncWait]
  by_cases hu : u = t
  · subst hu
    rw [Function.update_self, if_pos rfl, List.length_append, List.length_singleton]
    omega
  · rw [Function.update_of_ne hu, if_neg hu]
    omega

theorem fire_spec (h : l.fire t = some l') :
    ∃ w ws, l.waits t = w :: ws ∧ w.due ≤ l.now ∧ l' = { l with
      queue := l.queue ++ [{ timer := t, wait := w, aborted := false }]
      waits := Function.update l.waits t ws } := by
  unfold fire at h
  split at h
  · exact absurd h (by simp)
  · next w ws hws =>
      split at h
      · next hdue => exact ⟨w, ws, hws, hdue, (Option.some.inj h).symm⟩
      · exact absurd h (by simp)

theorem outstanding_fire (h : l.fire t = some l') : l'.outstanding u = l.outstanding u := by
  obtain ⟨w, ws, hws, _, rfl⟩ := fire_spec h
  simp only [outstanding, List.countP_append, List.countP_singleton, decide_eq_true_eq]
  by_cases hu : u = t
  · subst hu
    rw [Function.update_self, hws, if_pos rfl, List.length_cons]
    omega
  · rw [Function.update_of_ne hu, if_neg (Ne.symm hu), Nat.add_zero]

omit [DecidableEq κ] in
theorem take_spec (h : l.take = some (f, l')) :
    l.queue = f :: l'.queue ∧ l' = { l with queue := l'.queue } := by
  unfold take at h
  split at h
  · exact absurd h (by simp)
  · next g gs hq =>
      obtain ⟨rfl, rfl⟩ := Prod.mk.inj (Option.some.inj h)
      exact ⟨hq, rfl⟩

/-- A handler that is taken was one. -/
theorem outstanding_take (h : l.take = some (f, l')) :
    l.outstanding u = l'.outstanding u + if u = f.timer then 1 else 0 := by
  obtain ⟨hq, heq⟩ := take_spec h
  have hwaits : l'.waits = l.waits := by rw [heq]
  simp only [outstanding, hq, hwaits, List.countP_cons, decide_eq_true_eq]
  by_cases hu : u = f.timer
  · rw [if_pos hu, if_pos hu.symm, Nat.add_assoc]
  · rw [if_neg hu, if_neg (Ne.symm hu)]
    rfl

/-! ## Punctuality -/

namespace Punctual

omit [DecidableEq κ] in
theorem init : ({} : TimerLoop κ).Punctual := by
  intro f hf
  cases hf

omit [DecidableEq κ] in
theorem tick (h : l.Punctual) (n : Nat) : (l.tick n).Punctual :=
  fun f hf => Nat.le_trans (h f hf) (Nat.le_add_right _ _)

/-- Setting an expiry cancels nothing where no wait is pending. -/
theorem expiresFromNow (h : l.Punctual) (hwaits : l.waits t = []) : (l.expiresFromNow t d).Punctual := by
  intro f hf
  rw [TimerLoop.expiresFromNow, hwaits, List.map_nil, List.append_nil] at hf
  exact h f hf

theorem asyncWait (h : l.Punctual) : (l.asyncWait t).Punctual := h

theorem fire (h : l.Punctual) (hl : l.fire t = some l') : l'.Punctual := by
  obtain ⟨w, ws, _, hdue, rfl⟩ := fire_spec hl
  intro f hf
  rcases List.mem_append.mp hf with hf | hf
  · exact h f hf
  · obtain rfl := List.mem_singleton.mp hf
    exact hdue

omit [DecidableEq κ] in
theorem take (h : l.Punctual) (hl : l.take = some (f, l')) : l'.Punctual ∧ f.wait.due ≤ l'.now := by
  obtain ⟨hq, heq⟩ := take_spec hl
  have hnow : l'.now = l.now := by rw [heq]
  have hall : ∀ g ∈ f :: l'.queue, g.wait.due ≤ l'.now := by
    rw [← hq, hnow]
    exact h
  exact ⟨fun g hg => hall g (List.mem_cons_of_mem _ hg), hall f List.mem_cons_self⟩

end Punctual

/-- Nothing outstanding, no wait pending. -/
theorem waits_eq_nil (h : l.outstanding t = 0) : l.waits t = [] := by
  apply List.length_eq_zero_iff.mp
  rw [outstanding] at h
  omega

end TimerLoop

end AdManager.Lib
