/-
# AdManager.Lib.ListKeys — lists whose elements carry pairwise different keys.

A pending list is searched by one property of its elements and identified by another. When the
identifying keys are pairwise different, taking out the first match removes exactly one key, whatever
the search property is.
-/
import Mathlib.Data.List.Nodup

namespace AdManager.Lib

variable {α β κ : Type*}

/-- Taking out the first match removes exactly the elements with its key. -/
theorem eraseP_eq_filter_key [DecidableEq κ] {key : α → κ} {p : α → Bool} {l : List α} {a : α}
    (hnodup : (l.map key).Nodup) (hfind : l.find? p = some a) :
    l.eraseP p = l.filter fun b => decide (key b ≠ key a) := by
  obtain ⟨hp, as, bs, rfl, has⟩ := List.find?_eq_some_iff_append.mp hfind
  rw [List.map_append, List.map_cons, List.nodup_append] at hnodup
  obtain ⟨_, hbs, hne⟩ := hnodup
  have hleft : as.filter (fun b => decide (key b ≠ key a)) = as := by
    rw [List.filter_eq_self]
    intro b hb
    simpa using hne (key b) (List.mem_map_of_mem hb) (key a) List.mem_cons_self
  have hright : bs.filter (fun b => decide (key b ≠ key a)) = bs := by
    rw [List.filter_eq_self]
    intro b hb
    have hkey : key b ≠ key a := fun he =>
      (List.nodup_cons.mp hbs).1 (he ▸ List.mem_map_of_mem hb)
    simpa using hkey
  rw [List.eraseP_append_right _ (by simpa using has), List.eraseP_cons_of_pos hp,
    List.filter_append, hleft, List.filter_cons_of_neg (by simp), hright]

/-- A partial function that is defined on the whole list drops nothing of it. -/
theorem map_some_filterMap {f : α → Option β} {l : List α} (h : ∀ a ∈ l, (f a).isSome) :
    (l.filterMap f).map some = l.map f := by
  induction l with
  | nil => rfl
  | cons a l ih =>
      obtain ⟨b, hb⟩ := Option.isSome_iff_exists.mp (h a List.mem_cons_self)
      rw [List.filterMap_cons, hb, List.map_cons, List.map_cons, hb,
        ih fun a' ha' => h a' (List.mem_cons_of_mem _ ha')]

/-- Where the keys are pairwise different, a key names one position. -/
theorem index_eq_of_key {f : α → Option β} {l : List α} (h : (l.filterMap f).Nodup) {i j : Nat}
    {a b : α} {k : β} (hi : l[i]? = some a) (hj : l[j]? = some b) (ha : f a = some k)
    (hb : f b = some k) : i = j := by
  induction l generalizing i j with
  | nil => simp at hi
  | cons c l ih =>
      -- a second element with the key of the first would make that key occur twice
      have hfresh : ∀ {n : Nat} {d : α}, l[n]? = some d → f d = some k → f c ≠ some k := by
        intro n d hn hd hc
        rw [List.filterMap_cons, hc] at h
        exact (List.nodup_cons.mp h).1 (List.mem_filterMap.mpr ⟨d, List.mem_of_getElem? hn, hd⟩)
      have hrest : (l.filterMap f).Nodup := by
        rw [List.filterMap_cons] at h
        split at h
        · exact h
        · exact (List.nodup_cons.mp h).2
      cases i with
      | zero =>
          obtain rfl : c = a := by simpa using hi
          cases j with
          | zero => rfl
          | succ j => exact absurd ha (hfresh (by simpa using hj) hb)
      | succ i =>
          cases j with
          | zero =>
              obtain rfl : c = b := by simpa using hj
              exact absurd hb (hfresh (by simpa using hi) ha)
          | succ j =>
              simp only [List.getElem?_cons_succ] at hi hj
              exact congrArg (· + 1) (ih hrest hi hj)

/-- An element of a list with one more at its end is one of the list, or that one. -/
theorem getElem?_concat_cases {l : List α} {a b : α} {i : Nat} (h : (l ++ [a])[i]? = some b) :
    l[i]? = some b ∨ (i = l.length ∧ b = a) := by
  rcases Nat.lt_or_ge i l.length with hlt | hge
  · rw [List.getElem?_append_left hlt] at h
    exact Or.inl h
  · rw [List.getElem?_append_right hge] at h
    have hzero : i - l.length = 0 := by
      have hone := (List.getElem?_eq_some_iff.mp h).1
      rw [List.length_singleton] at hone
      omega
    rw [hzero, List.getElem?_cons_zero] at h
    exact Or.inr ⟨by omega, (Option.some.inj h).symm⟩

/-- A position of a list is a position of every longer one. -/
theorem getElem?_of_prefix {l l' : List α} (h : l <+: l') {i : Nat} {a : α} (hi : l[i]? = some a) :
    l'[i]? = some a := by
  obtain ⟨m, rfl⟩ := h
  rw [List.getElem?_append_left (List.getElem?_eq_some_iff.mp hi).1]
  exact hi

end AdManager.Lib
