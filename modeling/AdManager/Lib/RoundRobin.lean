/-
# AdManager.Lib.RoundRobin — a queue whose front goes to the back until one that qualifies is served.

`serve p` turns a queue until it has moved an element that satisfies `p`, and serves that one; when
there is none it has turned the queue once round. Two facts carry everything: the queue only rotates,
and its qualifying elements, as a list, rotate by exactly one for each service. So the elements served
are the qualifying ones taken cyclically from the front, whatever stands between them.

Which *place* of the queue a service takes is read off the same loop on the queue with its places
attached (`serves_map`), so that equal elements stay apart.
-/
import Mathlib.Data.List.Rotate
import Mathlib.Data.Nat.ModEq

namespace AdManager.Lib

open List

variable {α β : Type*} {p : α → Bool}

/-! ## The loop -/

/-- With `count` looks left: the front goes to the back, until one that qualifies has been moved. Gives
the queue and the element served. -/
def seek (p : α → Bool) : Nat → List α → List α × Option α
  | 0, l => (l, none)
  | _ + 1, [] => ([], none)
  | count + 1, a :: l => if p a then (l ++ [a], some a) else seek p count (l ++ [a])

/-- One service: as many looks as the queue is long. -/
def serve (p : α → Bool) (l : List α) : List α × Option α := seek p l.length l

/-- `n` services in a row: the queue after them, and what each one served. -/
def serves (p : α → Bool) : Nat → List α → List α × List (Option α)
  | 0, l => (l, [])
  | n + 1, l =>
      let rest := serves p n (serve p l).1
      (rest.1, (serve p l).2 :: rest.2)

/-- The loop stops at the first element that qualifies. -/
theorem seek_append {skip rest : List α} {a : α} {count : Nat} (hskip : ∀ b ∈ skip, ¬ p b) (ha : p a)
    (hcount : skip.length < count) :
    seek p count (skip ++ a :: rest) = (rest ++ skip ++ [a], some a) := by
  induction skip generalizing rest count with
  | nil =>
      obtain ⟨count, rfl⟩ := Nat.exists_eq_add_of_lt hcount
      simp [seek, ha]
  | cons b skip ih =>
      obtain ⟨hb, hskip⟩ := List.forall_mem_cons.mp hskip
      cases count with
      | zero => exact absurd hcount (by simp)
      | succ count =>
          have hlen : skip.length < count := by simpa using hcount
          have hturn : (skip ++ a :: rest) ++ [b] = skip ++ a :: (rest ++ [b]) := by simp
          rw [List.cons_append, seek, if_neg hb, hturn, ih hskip hlen]
          simp

/-- With nothing that qualifies the loop only turns the queue. -/
theorem seek_none (count : Nat) {l : List α} (h : ∀ a ∈ l, ¬ p a) :
    seek p count l = (l.rotate count, none) := by
  induction count generalizing l with
  | zero => simp [seek]
  | succ count ih =>
      cases l with
      | nil => simp [seek]
      | cons a l =>
          obtain ⟨ha, hl⟩ := List.forall_mem_cons.mp h
          have hturn : ∀ b ∈ l ++ [a], ¬ p b := by
            intro b hb
            rcases List.mem_append.mp hb with hb | hb
            · exact hl b hb
            · rwa [List.mem_singleton.mp hb]
          rw [seek, if_neg ha, ih hturn, List.rotate_cons_succ]

/-- The loop does not look at anything but `p`. -/
theorem seek_map (f : β → α) (count : Nat) (l : List β) :
    seek p count (l.map f) =
      ((seek (p ∘ f) count l).1.map f, (seek (p ∘ f) count l).2.map f) := by
  induction count generalizing l with
  | zero => rfl
  | succ count ih =>
      cases l with
      | nil => rfl
      | cons b l =>
          have hturn : l.map f ++ [f b] = (l ++ [b]).map f := by simp
          simp only [List.map_cons, seek, Function.comp_apply, hturn]
          split
          · rfl
          · exact ih (l ++ [b])

/-! ## One service -/

/-- What one service does: nothing when nothing qualifies; otherwise the first that qualifies is taken
to the back, with all before it. -/
theorem serve_cases (p : α → Bool) (l : List α) :
    (l.filter p = [] ∧ serve p l = (l, none)) ∨
    ∃ skip a rest, l = skip ++ a :: rest ∧ l.filter p = a :: rest.filter p ∧
      skip.filter p = [] ∧ p a ∧ serve p l = (rest ++ skip ++ [a], some a) := by
  cases hl : l.filter p with
  | nil =>
      refine Or.inl ⟨rfl, ?_⟩
      rw [serve, seek_none l.length (List.filter_eq_nil_iff.mp hl), List.rotate_length]
  | cons a q =>
      obtain ⟨skip, rest, rfl, hskip, ha, rfl⟩ := List.filter_eq_cons_iff.mp hl
      refine Or.inr ⟨skip, a, rest, rfl, rfl, List.filter_eq_nil_iff.mpr hskip, ha, ?_⟩
      exact seek_append hskip ha (by simp)

/-- The queue only rotates. -/
theorem serve_isRotated (p : α → Bool) (l : List α) : (serve p l).1 ~r l := by
  rcases serve_cases p l with ⟨_, h⟩ | ⟨skip, a, rest, rfl, _, _, _, h⟩
  · rw [h]
  · have hsplit : skip ++ a :: rest = (skip ++ [a]) ++ rest := by simp
    rw [h, hsplit, List.append_assoc]
    exact List.isRotated_append

/-- The elements that qualify rotate by one. -/
theorem serve_filter (p : α → Bool) (l : List α) :
    (serve p l).1.filter p = (l.filter p).rotate 1 := by
  rcases serve_cases p l with ⟨hl, h⟩ | ⟨skip, a, rest, _, hl, hskip, ha, h⟩
  · rw [h, hl, List.rotate_nil]
  · rw [h, hl, List.rotate_cons_succ, List.rotate_zero]
    simp [List.filter_append, hskip, ha]

/-- The one served is the first that qualifies. -/
theorem serve_served (p : α → Bool) (l : List α) : (serve p l).2 = (l.filter p).head? := by
  rcases serve_cases p l with ⟨hl, h⟩ | ⟨skip, a, rest, _, hl, _, _, h⟩
  · rw [h, hl, List.head?_nil]
  · rw [h, hl, List.head?_cons]

theorem serve_map (f : β → α) (l : List β) :
    serve p (l.map f) = ((serve (p ∘ f) l).1.map f, (serve (p ∘ f) l).2.map f) := by
  rw [serve, List.length_map, seek_map, serve]

/-! ## Services in a row -/

theorem serves_isRotated (p : α → Bool) (n : Nat) (l : List α) : (serves p n l).1 ~r l := by
  induction n generalizing l with
  | zero => rfl
  | succ n ih => exact (ih (serve p l).1).trans (serve_isRotated p l)

theorem serves_none (n : Nat) {l : List α} (h : l.filter p = []) :
    serves p n l = (l, List.replicate n none) := by
  have hserve : serve p l = (l, none) := by
    rw [serve, seek_none l.length (List.filter_eq_nil_iff.mp h), List.rotate_length]
  induction n with
  | zero => rfl
  | succ n ih => simp only [serves, hserve, ih, List.replicate_succ]

/-- The services take the elements that qualify one after the other, from the front and round again. -/
theorem serves_served (p : α → Bool) (n : Nat) (l : List α) :
    (serves p n l).2 = (List.range n).map fun k => ((l.filter p).rotate k).head? := by
  induction n generalizing l with
  | zero => rfl
  | succ n ih =>
      have hshift : (serves p n (serve p l).1).2 =
          (List.range n).map ((fun k => ((l.filter p).rotate k).head?) ∘ Nat.succ) := by
        rw [ih, serve_filter]
        refine List.map_congr_left fun k _ => ?_
        rw [Function.comp_apply, List.rotate_rotate, Nat.succ_eq_add_one, Nat.add_comm k 1]
      simp only [serves, serve_served, hshift, List.range_succ_eq_map, List.map_cons, List.map_map,
        List.rotate_zero]

theorem serves_map (f : β → α) (n : Nat) (l : List β) :
    serves p n (l.map f) =
      ((serves (p ∘ f) n l).1.map f, (serves (p ∘ f) n l).2.map (Option.map f)) := by
  induction n generalizing l with
  | zero => rfl
  | succ n ih => simp only [serves, serve_map, ih, List.map_cons]

/-! ## Fairness of a cyclic enumeration -/

/-- The head of a rotation is the cyclic enumeration of a list. -/
theorem head?_rotate_mod {l : List α} (h : l ≠ []) (k : Nat) :
    (l.rotate k).head? = l[k % l.length]? := by
  rw [← List.rotate_mod, List.head?_rotate (Nat.mod_lt k (List.length_pos_of_ne_nil h))]

/-- From any point on, as many turns as the list is long enumerate the list once. -/
theorem map_head?_rotate (l : List α) (i : Nat) :
    (List.range' i l.length).map (fun k => (l.rotate k).head?) = (l.rotate i).map some := by
  refine List.ext_getElem (by simp) fun m hm hm' => ?_
  have hlen : m < (l.rotate i).length := by simpa using hm'
  rw [List.getElem_map, List.getElem_range', Nat.one_mul, List.getElem_map, ← List.rotate_rotate,
    List.head?_rotate hlen, List.getElem?_eq_getElem hlen]

/-- **Fairness.** In the cyclic enumeration of a list without repetition, between two successive
occurrences of one element every other element occurs exactly once. -/
theorem count_between [DecidableEq α] {l : List α} (hnodup : l.Nodup) {a : α} (ha : a ∈ l) {i j : Nat}
    (hij : i < j) (hsame : (l.rotate i).head? = (l.rotate j).head?)
    (hnone : ∀ k, i < k → k < j → (l.rotate k).head? ≠ (l.rotate i).head?)
    (hne : (l.rotate i).head? ≠ some a) :
    ((List.range' (i + 1) (j - (i + 1))).map fun k => (l.rotate k).head?).count (some a) = 1 := by
  have hl : l ≠ [] := List.ne_nil_of_mem ha
  have hpos : 0 < l.length := List.length_pos_of_ne_nil hl
  -- two occurrences of one element are a multiple of the length apart, and here exactly the length
  have hmod : i % l.length = j % l.length := by
    rw [head?_rotate_mod hl, head?_rotate_mod hl] at hsame
    exact (List.getElem?_inj (Nat.mod_lt i hpos) hnodup).mp hsame
  have hle : i + l.length ≤ j := by
    have hdvd : l.length ∣ j - i := (Nat.modEq_iff_dvd' hij.le).mp hmod
    have := Nat.le_of_dvd (by omega) hdvd
    omega
  have hj : j = i + l.length := by
    by_contra hlt
    apply hnone (i + l.length) (by omega) (by omega)
    rw [head?_rotate_mod hl, head?_rotate_mod hl, Nat.add_mod_right]
  have hstretch : j - (i + 1) = l.length - 1 := by omega
  have hround : ((l.rotate i).map some).count (some a) = 1 := by
    refine List.count_eq_one_of_mem ?_ (List.mem_map_of_mem (List.mem_rotate.mpr ha))
    exact (List.nodup_rotate.mpr hnodup).map (Option.some_injective α)
  rw [← map_head?_rotate, ← Nat.sub_add_cancel hpos, List.range'_succ, List.map_cons,
    List.count_cons_of_ne hne] at hround
  rw [hstretch]
  exact hround

end AdManager.Lib
