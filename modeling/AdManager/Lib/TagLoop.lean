/-
# AdManager.Lib.TagLoop — records that are written field by field, each behind a tag.

A reader of such a record is a loop: it takes a tag, lets the field with this tag read what is behind it, and
goes on with what is left. A failure keeps the record as far as it was read. A record is a table of
`Field`s; `Field.Emits` says that a piece of input is a sequence of occurrences of the field and what reading
them does to a record.

`loop_fields` is the main rule: the fields of a table, written in its order, are read back, and what that does
is the composition of what each field does. A field may occur any number of times, so the same rule covers
optional and repeated fields and inputs that are joined.
-/
import Mathlib.Data.List.Basic

namespace AdManager.Lib

/-- How tags are written and read. -/
structure TagReader (τ α : Type*) where
  read : List α → Option (τ × List α)
  write : τ → List α
  read_write : ∀ t rest, read (write t ++ rest) = some (t, rest)
  write_ne_nil : ∀ t, write t ≠ []

/-- A field of a record `R`: its tags; what reading behind a tag makes of a record and leaves of the input,
if it succeeds; what is written for a record; and the record with the field of another one merged in. -/
structure Field (R τ α : Type*) where
  tags : List τ
  read : τ → R → List α → R × Option (List α)
  write : R → List α
  merge : R → R → R

/-- A part of a record. For a member of a structure the laws hold by definition. -/
structure Lens (R A : Type*) where
  get : R → A
  set : R → A → R
  get_set : ∀ r a, get (set r a) = a := by intros; rfl
  set_set : ∀ r a b, set (set r a) b = set r b := by intros; rfl
  set_get : ∀ r, set r (get r) = r := by intros; rfl

namespace Lens

variable {R A : Type*} (l : Lens R (List A)) (r : R) (a b : List A)

/-- Add to a list at its end. -/
def add : R := l.set r (l.get r ++ a)

@[simp] theorem add_nil : l.add r [] = r := by
  rw [add, List.append_nil, l.set_get]

@[simp] theorem add_add : l.add (l.add r a) b = l.add r (a ++ b) := by
  rw [add, add, l.get_set, l.set_set, List.append_assoc, add]

end Lens

namespace TagLoop

variable {R τ α : Type*}

/-- What to do behind a tag: let its field read, or else `other`. -/
def dispatch [DecidableEq τ] (fields : List (Field R τ α)) (other : τ → R → List α → R × Option (List α)) (t : τ) :
    R → List α → R × Option (List α) :=
  match fields.find? fun f => t ∈ f.tags with
  | some f => f.read t
  | none => other t

/-- The loop, with fuel. -/
def loop (T : TagReader τ α) (next : τ → R → List α → R × Option (List α)) :
    Nat → R → List α → R × Bool
  | _, r, [] => (r, true)
  | 0, r, _ :: _ => (r, false)
  | k + 1, r, a :: as =>
      match T.read (a :: as) with
      | none => (r, false)
      | some p =>
          match next p.1 r p.2 with
          | (r, none) => (r, false)
          | (r, some rest) => loop T next k r rest

/-- What is written for a record, in the order of the table. -/
def writeAll (fields : List (Field R τ α)) (r : R) : List α := fields.flatMap fun f => f.write r

/-- The record `m` with all fields of `s` merged in. -/
def mergeAll (fields : List (Field R τ α)) (s m : R) : R := fields.foldl (fun m f => f.merge s m) m

end TagLoop

/-! ## Occurrences of a field -/

section Emits

variable {R τ α : Type*} {T : TagReader τ α} {f : Field R τ α}

/-- `w` is a sequence of occurrences of the field, which make `r` of a record `m`. -/
inductive Field.Emits (T : TagReader τ α) (f : Field R τ α) : List α → R → R → Prop
  | nil (m : R) : Field.Emits T f [] m m
  | cons {t : τ} {payload w : List α} {m m' r : R} (ht : t ∈ f.tags)
      (hread : ∀ rest, f.read t m (payload ++ rest) = (m', some rest)) (hw : Field.Emits T f w m' r) :
      Field.Emits T f (T.write t ++ (payload ++ w)) m r

/-- One occurrence. -/
theorem Field.Emits.single {t : τ} {payload : List α} {m r : R} (ht : t ∈ f.tags)
    (hread : ∀ rest, f.read t m (payload ++ rest) = (r, some rest)) :
    f.Emits T (T.write t ++ payload) m r := by
  have hcons := Field.Emits.cons (T := T) ht hread (.nil r)
  rwa [List.append_nil] at hcons

/-- One after the other. -/
theorem Field.Emits.append {v w : List α} {m m' r : R} (hv : f.Emits T v m m') (hw : f.Emits T w m' r) :
    f.Emits T (v ++ w) m r := by
  induction hv with
  | nil m => exact hw
  | cons ht hread _ ih =>
      rw [List.append_assoc, List.append_assoc]
      exact .cons ht hread (ih hw)

end Emits

namespace TagLoop

/-! ## The loop over what fields emit -/

section Loop

variable {R τ α : Type*} {T : TagReader τ α} {next : τ → R → List α → R × Option (List α)}
  {m m' r : R} {input rest : List α}

/-- The loop, with any fuel that covers the input, makes `r` of `m`. -/
def Reads (T : TagReader τ α) (next : τ → R → List α → R × Option (List α)) (m : R) (input : List α)
    (r : R) : Prop :=
  ∀ k, input.length ≤ k → loop T next k m input = (r, true)

theorem reads_nil : Reads T next m [] m := by
  intro k _
  cases k <;> rfl

/-- A turn of the loop. -/
theorem reads_turn {t : τ} {payload : List α}
    (hnext : next t m (payload ++ rest) = (m', some rest)) (h : Reads T next m' rest r) :
    Reads T next m (T.write t ++ (payload ++ rest)) r := by
  intro k hk
  have hpos : 0 < (T.write t).length := List.length_pos_iff.mpr (T.write_ne_nil t)
  rw [List.length_append, List.length_append] at hk
  obtain ⟨k, rfl⟩ : ∃ n, k = n + 1 := ⟨k - 1, by omega⟩
  obtain ⟨a, as, has⟩ := List.exists_cons_of_ne_nil (T.write_ne_nil t)
  have hread := T.read_write t (payload ++ rest)
  rw [has, List.cons_append] at hread ⊢
  simp only [loop, hread, hnext]
  exact h k (by omega)

variable [DecidableEq τ] {fields : List (Field R τ α)}
  {other : τ → R → List α → R × Option (List α)} {f : Field R τ α}

/-- The tags of a table are told apart. -/
def Disjoint (fields : List (Field R τ α)) : Prop :=
  fields.Pairwise fun f g => ∀ t ∈ f.tags, t ∉ g.tags

/-- A field of a table is found by its tags. -/
theorem dispatch_mem (hdisjoint : Disjoint fields) (hf : f ∈ fields) {t : τ} (ht : t ∈ f.tags) :
    dispatch fields other t = f.read t := by
  have hfind : (fields.find? fun f => t ∈ f.tags) = some f := by
    induction fields with
    | nil => exact absurd hf (by simp)
    | cons g gs ih =>
        have hpairs := List.pairwise_cons.mp hdisjoint
        rcases List.mem_cons.mp hf with rfl | hmem
        · rw [List.find?_cons_of_pos (by simpa using ht)]
        · have hother : t ∉ g.tags := fun hg => hpairs.1 f hmem t hg ht
          rw [List.find?_cons_of_neg (by simpa using hother)]
          exact ih hpairs.2 hmem
  rw [dispatch, hfind]

/-- What a field emits is read by the loop. -/
theorem reads_emits (hdisjoint : Disjoint fields) (hf : f ∈ fields) {w : List α} (hw : f.Emits T w m m')
    (h : Reads T (dispatch fields other) m' rest r) :
    Reads T (dispatch fields other) m (w ++ rest) r := by
  induction hw with
  | nil m => exact h
  | cons ht hread _ ih =>
      rw [List.append_assoc, List.append_assoc]
      exact reads_turn (by rw [dispatch_mem hdisjoint hf ht]; exact hread _) (ih h)

/-- **The fields of a table, written in any order, are read back**: reading what was written for a record is
merging its fields, one after the other. -/
theorem reads_fields (hdisjoint : Disjoint fields) {s : R} (gs : List (Field R τ α))
    (hgs : ∀ g ∈ gs, g ∈ fields ∧ ∀ m, g.Emits T (g.write s) m (g.merge s m)) :
    ∀ {m : R}, Reads T (dispatch fields other) (mergeAll gs s m) rest r →
      Reads T (dispatch fields other) m (writeAll gs s ++ rest) r := by
  induction gs with
  | nil =>
      intro m h
      exact h
  | cons g gs ih =>
      intro m h
      obtain ⟨hmem, hemits⟩ := hgs g (by simp)
      rw [writeAll, List.flatMap_cons, List.append_assoc]
      exact reads_emits hdisjoint hmem (hemits m) (ih (fun f hf => hgs f (by simp [hf])) h)

/-- **Reading a record that was written merges it.** -/
theorem reads_writeAll (hdisjoint : Disjoint fields) {s : R}
    (hemits : ∀ f ∈ fields, ∀ m, f.Emits T (f.write s) m (f.merge s m))
    (h : Reads T (dispatch fields other) (mergeAll fields s m) rest r) :
    Reads T (dispatch fields other) m (writeAll fields s ++ rest) r :=
  reads_fields hdisjoint fields (fun f hf => ⟨hf, hemits f hf⟩) h

end Loop

/-! ## What the loop keeps -/

section Keeps

variable {R τ α : Type*} {T : TagReader τ α} {next : τ → R → List α → R × Option (List α)}
  {m r : R} {input : List α}

/-- **What every successful turn keeps holds of what the loop accepts.** -/
theorem loop_keeps {P : R → Prop}
    (hnext : ∀ t m input r rest, P m → next t m input = (r, some rest) → P r) {k : Nat} (hm : P m)
    (h : loop T next k m input = (r, true)) : P r := by
  induction k generalizing m input with
  | zero =>
      cases input with
      | nil => simpa [loop] using (Prod.mk.inj h).1 ▸ hm
      | cons a as => exact absurd (Prod.mk.inj h).2 (by simp)
  | succ k ih =>
      cases input with
      | nil => simpa [loop] using (Prod.mk.inj h).1 ▸ hm
      | cons a as =>
          simp only [loop] at h
          split at h
          · exact absurd (Prod.mk.inj h).2 (by simp)
          next p hp =>
              split at h
              · exact absurd (Prod.mk.inj h).2 (by simp)
              next m' rest hturn => exact ih (hnext _ _ _ _ _ hm hturn) h

/-- A turn in which a field or `other` keeps something. -/
theorem dispatch_keeps [DecidableEq τ] {fields : List (Field R τ α)} {other : τ → R → List α → R × Option (List α)}
    {P : R → Prop}
    (hfields : ∀ f ∈ fields, ∀ t m input r rest, P m → f.read t m input = (r, some rest) → P r)
    (hother : ∀ t m input r rest, P m → other t m input = (r, some rest) → P r) (t : τ) (m : R)
    (input : List α) (r : R) (rest : List α) (hm : P m)
    (h : dispatch fields other t m input = (r, some rest)) : P r := by
  unfold dispatch at h
  cases hfind : fields.find? fun f => t ∈ f.tags with
  | none =>
      rw [hfind] at h
      exact hother t m input r rest hm h
  | some f =>
      rw [hfind] at h
      exact hfields f (List.mem_of_find?_eq_some hfind) t m input r rest hm h

end Keeps

end TagLoop

end AdManager.Lib
