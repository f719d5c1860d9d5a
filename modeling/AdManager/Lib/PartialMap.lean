/-
# AdManager.Lib.PartialMap — maps that are only ever added to.

A map that holds a value for some of its keys, and the one way of writing in which nothing is ever
overwritten: `insertNew` leaves a key that has a value alone. Reading a missing key so that it comes
into being with a default value is the same operation. After any number of such writes a key has its
old value, or else the first value written for it (`insertAll_apply`), and the map extends the old one.
-/
import Mathlib.Logic.Function.Basic
import Mathlib.Data.List.Nodup

namespace AdManager.Lib

/-- A map with values for some of its keys. -/
def PMap (κ α : Type*) := κ → Option α

namespace PMap

variable {κ α : Type*} {m m' m'' : PMap κ α}

/-- The map without keys. -/
def empty : PMap κ α := fun _ => none

/-- All that `m` holds, `m'` holds. -/
def Extends (m m' : PMap κ α) : Prop := ∀ k v, m k = some v → m' k = some v

theorem Extends.refl (m : PMap κ α) : Extends m m := fun _ _ h => h

theorem Extends.trans (h : Extends m m') (h' : Extends m' m'') : Extends m m'' :=
  fun k v hk => h' k v (h k v hk)

theorem Extends.isSome (h : Extends m m') {k : κ} (hk : (m k).isSome) : (m' k).isSome := by
  obtain ⟨v, hv⟩ := Option.isSome_iff_exists.mp hk
  rw [h k v hv]
  rfl

variable [DecidableEq κ]

/-- Write `v` for the key `k`, unless it has a value. -/
def insertNew (m : PMap κ α) (k : κ) (v : α) : PMap κ α :=
  fun j => (m j).or (if j = k then some v else none)

/-- Write a list of pairs. -/
def insertAll (m : PMap κ α) (kvs : List (κ × α)) : PMap κ α :=
  kvs.foldl (fun m kv => m.insertNew kv.1 kv.2) m

@[simp] theorem insertAll_nil (m : PMap κ α) : m.insertAll [] = m := rfl

@[simp] theorem insertAll_cons (m : PMap κ α) (kv : κ × α) (kvs : List (κ × α)) :
    m.insertAll (kv :: kvs) = (m.insertNew kv.1 kv.2).insertAll kvs := rfl

theorem insertAll_append (m : PMap κ α) (kvs kvs' : List (κ × α)) :
    m.insertAll (kvs ++ kvs') = (m.insertAll kvs).insertAll kvs' := List.foldl_append

/-- A key has its old value, or else the first one written. -/
theorem insertAll_apply (m : PMap κ α) (kvs : List (κ × α)) (j : κ) :
    m.insertAll kvs j = (m j).or ((kvs.find? fun kv => j = kv.1).map Prod.snd) := by
  induction kvs generalizing m with
  | nil => simp
  | cons kv kvs ih =>
      rw [insertAll_cons, ih, insertNew, Option.or_assoc, List.find?_cons]
      by_cases hj : j = kv.1
      · simp [hj]
      · simp [hj]

theorem insertAll_extends (m : PMap κ α) (kvs : List (κ × α)) : Extends m (m.insertAll kvs) := by
  intro k v hk
  rw [insertAll_apply, hk]
  rfl

/-- Every key written has a value. -/
theorem insertAll_isSome (m : PMap κ α) {kvs : List (κ × α)} {kv : κ × α} (h : kv ∈ kvs) :
    (m.insertAll kvs kv.1).isSome := by
  rw [insertAll_apply, Option.isSome_or, Option.isSome_map]
  have hfind : (kvs.find? fun kv' => kv.1 = kv'.1).isSome := by
    rw [List.find?_isSome]
    exact ⟨kv, h, by simp⟩
  rw [hfind, Bool.or_true]

/-- A value that is new was written. -/
theorem mem_of_insertAll (m : PMap κ α) {kvs : List (κ × α)} {k : κ} {v : α}
    (h : m.insertAll kvs k = some v) : m k = some v ∨ (m k = none ∧ (k, v) ∈ kvs) := by
  rw [insertAll_apply] at h
  cases hk : m k with
  | some w =>
      rw [hk] at h
      exact Or.inl h
  | none =>
      rw [hk, Option.none_or] at h
      obtain ⟨⟨k', v'⟩, hfind, rfl⟩ := Option.map_eq_some_iff.mp h
      obtain rfl : k = k' := by simpa using List.find?_some hfind
      exact Or.inr ⟨rfl, List.mem_of_find?_eq_some hfind⟩

/-- With pairwise different keys, a pair takes effect unless its key had another value. -/
theorem insertAll_of_mem (m : PMap κ α) {kvs : List (κ × α)} (hnodup : (kvs.map Prod.fst).Nodup)
    {kv : κ × α} (h : kv ∈ kvs) (hold : m kv.1 = none ∨ m kv.1 = some kv.2) :
    m.insertAll kvs kv.1 = some kv.2 := by
  obtain ⟨v, hv⟩ := Option.isSome_iff_exists.mp (m.insertAll_isSome h)
  rw [hv]
  rcases m.mem_of_insertAll hv with hm | ⟨_, hmem⟩
  · rcases hold with hold | hold
    · simp [hold] at hm
    · exact hm.symm.trans hold
  · have hpair : (kv.1, v) = kv := List.inj_on_of_nodup_map hnodup hmem h rfl
    rw [← hpair]

/-- Writing nothing but keys that have values changes nothing. -/
theorem insertAll_eq_self (m : PMap κ α) {kvs : List (κ × α)} (h : ∀ kv ∈ kvs, (m kv.1).isSome) :
    m.insertAll kvs = m := by
  funext k
  cases hk : m k with
  | some v => exact m.insertAll_extends kvs k v hk
  | none =>
      cases hall : m.insertAll kvs k with
      | none => rfl
      | some v =>
          rcases m.mem_of_insertAll hall with hm | ⟨_, hmem⟩
          · simp [hk] at hm
          · simpa [hk] using h (k, v) hmem

end PMap

end AdManager.Lib
