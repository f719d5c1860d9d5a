/-
# AdManager.Lib.RefCount — counted objects as one owner sees them.

An owner of reference-counted objects holds some references; every object also carries the flag that it
was shut down. `addRef`, `release` and `shutDown` are what the owner does. A release or a shutdown of an
object on which the owner has no reference left is a misuse: it changes nothing here and is recorded.

`Holds h l` says that the references held are exactly those of the list `l` and that nothing was
misused. The rules below take a `Holds` through each operation, so the proof about a program that keeps
pointers is a list of the references it has at each point.
-/
import Mathlib.Data.List.Count

namespace AdManager.Lib

/-- An object: the references the owner holds on it, and whether it was shut down. -/
structure Counted where
  refs : Nat := 0
  shut : Bool := false
  deriving DecidableEq, Repr

/-- The objects, and those used without a reference. -/
structure RefHeap (ι : Type*) where
  object : ι → Counted := fun _ => {}
  misused : List ι := []

namespace RefHeap

variable {ι : Type*} [DecidableEq ι] (h : RefHeap ι) (i j : ι)

/-! ## Operations -/

/-- `AddRef`, also the reference that comes with a new object. -/
def addRef : RefHeap ι where
  object := Function.update h.object i { h.object i with refs := (h.object i).refs + 1 }
  misused := h.misused

/-- A use of `i` through a pointer: it needs a reference. -/
def use (f : Counted → Counted) : RefHeap ι :=
  if (h.object i).refs = 0 then { h with misused := h.misused ++ [i] }
  else { h with object := Function.update h.object i (f (h.object i)) }

/-- `Release`. -/
def release : RefHeap ι := h.use i fun o => { o with refs := o.refs - 1 }

/-- `Shutdown` of the object. -/
def shutDown : RefHeap ι := h.use i fun o => { o with shut := true }

/-! ## What each operation leaves alone -/

@[simp] theorem addRef_shut : ((h.addRef i).object j).shut = (h.object j).shut := by
  by_cases hj : j = i
  · subst hj
    simp [addRef]
  · simp [addRef, hj]

theorem use_object (f : Counted → Counted) :
    (h.use i f).object j =
      if j = i ∧ (h.object i).refs ≠ 0 then f (h.object j) else h.object j := by
  by_cases hrefs : (h.object i).refs = 0
  · simp [use, hrefs]
  · by_cases hj : j = i
    · subst hj
      simp [use, hrefs]
    · simp [use, hrefs, hj]

@[simp] theorem release_shut : ((h.release i).object j).shut = (h.object j).shut := by
  rw [release, use_object]
  split <;> rfl

theorem shutDown_shut (hne : j ≠ i) : ((h.shutDown i).object j).shut = (h.object j).shut := by
  rw [shutDown, use_object, if_neg fun hc => hne hc.1]

/-! ## The references held -/

/-- The owner holds the references of the list `l`, and has misused nothing. -/
structure Holds (l : List ι) : Prop where
  refs : ∀ i, (h.object i).refs = l.count i
  clean : h.misused = []

variable {h i j} {l : List ι}

/-- **A new reference.** -/
theorem Holds.addRef (hl : h.Holds l) : (h.addRef i).Holds (i :: l) where
  refs j := by
    by_cases hj : j = i
    · subst hj
      simp [RefHeap.addRef, hl.refs]
    · have hcount : (i :: l).count j = l.count j := List.count_cons_of_ne (Ne.symm hj)
      simp [RefHeap.addRef, hj, hl.refs, hcount]
  clean := hl.clean

theorem Holds.refs_ne_zero (hl : h.Holds l) (hi : i ∈ l) : (h.object i).refs ≠ 0 := by
  have hpos : 0 < l.count i := List.count_pos_iff.mpr hi
  rw [hl.refs]
  omega

/-- A use of an object held is no misuse. -/
theorem Holds.use_misused (hl : h.Holds l) (hi : i ∈ l) (f : Counted → Counted) :
    (h.use i f).misused = [] := by
  rw [use, if_neg (hl.refs_ne_zero hi)]
  exact hl.clean

/-- **A reference given back.** -/
theorem Holds.release (hl : h.Holds l) (hi : i ∈ l) : (h.release i).Holds (l.erase i) where
  refs j := by
    rw [RefHeap.release, use_object]
    by_cases hj : j = i
    · subst hj
      rw [if_pos ⟨rfl, hl.refs_ne_zero hi⟩, List.count_erase_self, ← hl.refs]
    · rw [if_neg fun hc => hj hc.1, List.count_erase_of_ne hj, hl.refs]
  clean := hl.use_misused hi _

/-- **An object held may be shut down.** -/
theorem Holds.shutDown (hl : h.Holds l) (hi : i ∈ l) : (h.shutDown i).Holds l where
  refs j := by
    rw [RefHeap.shutDown, use_object]
    split <;> exact hl.refs j
  clean := hl.use_misused hi _

theorem Holds.perm {l' : List ι} (hl : h.Holds l) (hp : l.Perm l') : h.Holds l' where
  refs i := (hl.refs i).trans (hp.count_eq i)
  clean := hl.clean

end RefHeap

end AdManager.Lib
