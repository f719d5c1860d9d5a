/-
# AdManager.Lib.Publication — a writer, and readers that fetch its last value.

A writer publishes one value after the other and keeps the last. A reader asks for it; its answer is made at
some moment, of what is the last value then; later it arrives and is accepted, or it is lost. Nothing orders
the readers against the writer or against each other.

The reads of a reader are intervals, from the version at the question to the version at the answer, and they
lie one behind the other (`inOrder_run`). So a reader never goes back (`reads_inOrder`), and what it accepts
for a question is at least as new as what was published when it asked (`reads_since`).
-/
import AdManager.Lib.Run
import Mathlib.Logic.Function.Basic

namespace AdManager.Lib

/-- A read: how many values were published at the question, and at the answer. -/
structure Read where
  asked : Nat
  answered : Nat

/-- What was published, the questions and the answers on their way, and the reads that were accepted. -/
structure Publication (ι α : Type*) where
  published : List α := []
  asked : ι → Option Nat := fun _ => none
  answered : ι → Option Nat := fun _ => none
  reads : ι → List Read := fun _ => []

/-- **`xs` reads `log` in order**: with repetitions and gaps, but never back. -/
def ReadsInOrder {α : Type*} (log xs : List α) : Prop :=
  ∃ ks : List Nat, ks.Pairwise (· ≤ ·) ∧ xs.map some = ks.map fun k => log[k]?

namespace Publication

/-- What can happen. -/
inductive Event (ι α : Type*) where
  | publish (a : α)
  | ask (i : ι)
  | answer (i : ι)
  | accept (i : ι)
  | abandon (i : ι)

variable {ι α : Type*}

/-- The value that was the last one when `v` values were published. -/
def valueAt (s : Publication ι α) (v : Nat) : Option α := (s.published.take v).getLast?

variable [DecidableEq ι]

/-- One event. -/
def step (s : Publication ι α) : Event ι α → Option (Publication ι α)
  | .publish a => some { s with published := s.published ++ [a] }
  | .ask i =>
      if s.asked i = none then
        some { s with asked := Function.update s.asked i (some s.published.length) }
      else none
  | .answer i =>
      if (s.asked i).isSome ∧ s.answered i = none then
        some { s with answered := Function.update s.answered i (some s.published.length) }
      else none
  | .accept i =>
      (s.asked i).bind fun n => (s.answered i).map fun v =>
        { s with
          asked := Function.update s.asked i none
          answered := Function.update s.answered i none
          reads := Function.update s.reads i (s.reads i ++ [{ asked := n, answered := v }]) }
  | .abandon i =>
      some { s with
        asked := Function.update s.asked i none
        answered := Function.update s.answered i none }

/-- `s'` differs from `s` in the reader `i` only, of which it says what it has. -/
structure Sets (s : Publication ι α) (i : ι) (asked answered : Option Nat) (reads : List Read)
    (s' : Publication ι α) : Prop where
  published : s'.published = s.published
  asked : s'.asked i = asked
  answered : s'.answered i = answered
  reads : s'.reads i = reads
  others : ∀ j, j ≠ i → s'.asked j = s.asked j ∧ s'.answered j = s.answered j ∧ s'.reads j = s.reads j

section Events

variable {s : Publication ι α} {i : ι}

theorem ask_sets (hidle : s.asked i = none) : ∃ s', step s (.ask i) = some s' ∧
    Sets s i (some s.published.length) (s.answered i) (s.reads i) s' := by
  refine ⟨_, if_pos hidle, rfl, Function.update_self i _ _, rfl, rfl, ?_⟩
  intro j hj
  exact ⟨Function.update_of_ne hj _ _, rfl, rfl⟩

theorem answer_sets (hasked : (s.asked i).isSome) (hanswered : s.answered i = none) :
    ∃ s', step s (.answer i) = some s' ∧
      Sets s i (s.asked i) (some s.published.length) (s.reads i) s' := by
  refine ⟨_, if_pos ⟨hasked, hanswered⟩, rfl, rfl, Function.update_self i _ _, rfl, ?_⟩
  intro j hj
  exact ⟨rfl, Function.update_of_ne hj _ _, rfl⟩

theorem accept_sets {n v : Nat} (hn : s.asked i = some n) (hv : s.answered i = some v) :
    ∃ s', step s (.accept i) = some s' ∧
      Sets s i none none (s.reads i ++ [{ asked := n, answered := v }]) s' := by
  have hs : step s (.accept i) = some { s with
      asked := Function.update s.asked i none
      answered := Function.update s.answered i none
      reads := Function.update s.reads i (s.reads i ++ [{ asked := n, answered := v }]) } := by
    rw [step, hn, hv]
    rfl
  refine ⟨_, hs, rfl, Function.update_self i _ _, Function.update_self i _ _,
    Function.update_self i _ _, ?_⟩
  intro j hj
  exact ⟨Function.update_of_ne hj _ _, Function.update_of_ne hj _ _, Function.update_of_ne hj _ _⟩

theorem abandon_sets (s : Publication ι α) (i : ι) :
    ∃ s', step s (.abandon i) = some s' ∧ Sets s i none none (s.reads i) s' := by
  refine ⟨_, rfl, rfl, Function.update_self i _ _, Function.update_self i _ _, rfl, ?_⟩
  intro j hj
  exact ⟨Function.update_of_ne hj _ _, Function.update_of_ne hj _ _, rfl⟩

end Events

/-! ## The reads of a reader -/

/-- **The reads of `i` lie one behind the other**, before the question that is open. -/
structure InOrder (s : Publication ι α) (i : ι) : Prop where
  interval : ∀ r ∈ s.reads i, r.asked ≤ r.answered ∧ r.answered ≤ s.published.length
  order : (s.reads i).Pairwise fun r r' => r.answered ≤ r'.asked
  asked : ∀ n ∈ s.asked i, n ≤ s.published.length ∧ ∀ r ∈ s.reads i, r.answered ≤ n
  answered : ∀ v ∈ s.answered i, v ≤ s.published.length ∧ ∃ n ∈ s.asked i, n ≤ v

/-- What is on its way to `i`, and what it has read, is not changed by the events of others. -/
structure SameReader (i : ι) (s s' : Publication ι α) : Prop where
  asked : s'.asked i = s.asked i
  answered : s'.answered i = s.answered i
  reads : s'.reads i = s.reads i

/-- **What an event does, seen by the reader `i`.** -/
inductive ReaderStep (s : Publication ι α) (i : ι) (s' : Publication ι α) : Prop
  | other (hsame : SameReader i s s') (hgrows : s.published <+: s'.published)
  | ask (hidle : s.asked i = none) (hpublished : s'.published = s.published)
      (hasked : s'.asked i = some s.published.length) (hanswered : s'.answered i = s.answered i)
      (hreads : s'.reads i = s.reads i)
  | answer (hwaits : (s.asked i).isSome) (hpublished : s'.published = s.published)
      (hasked : s'.asked i = s.asked i) (hanswered : s'.answered i = some s.published.length)
      (hreads : s'.reads i = s.reads i)
  | accept (n v : Nat) (hn : s.asked i = some n) (hv : s.answered i = some v)
      (hpublished : s'.published = s.published) (hasked : s'.asked i = none)
      (hanswered : s'.answered i = none)
      (hreads : s'.reads i = s.reads i ++ [{ asked := n, answered := v }])
  | abandon (hpublished : s'.published = s.published) (hasked : s'.asked i = none)
      (hanswered : s'.answered i = none) (hreads : s'.reads i = s.reads i)

theorem readerStep {s s' : Publication ι α} {e : Event ι α} (hs : step s e = some s') (i : ι) :
    ReaderStep s i s' := by
  cases e with
  | publish a =>
      obtain rfl := Option.some.inj hs
      exact .other ⟨rfl, rfl, rfl⟩ (List.prefix_append _ _)
  | ask j =>
      simp only [step] at hs
      split at hs
      · next hidle =>
          obtain rfl := Option.some.inj hs
          by_cases hij : i = j
          · subst hij
            exact .ask hidle rfl (Function.update_self i _ _) rfl rfl
          · exact .other ⟨Function.update_of_ne hij _ _, rfl, rfl⟩ List.prefix_rfl
      · exact absurd hs (by simp)
  | answer j =>
      simp only [step] at hs
      split at hs
      · next hwaits =>
          obtain rfl := Option.some.inj hs
          by_cases hij : i = j
          · subst hij
            exact .answer hwaits.1 rfl rfl (Function.update_self i _ _) rfl
          · exact .other ⟨rfl, Function.update_of_ne hij _ _, rfl⟩ List.prefix_rfl
      · exact absurd hs (by simp)
  | accept j =>
      obtain ⟨n, hn, hs⟩ := Option.bind_eq_some_iff.mp hs
      obtain ⟨v, hv, rfl⟩ := Option.map_eq_some_iff.mp hs
      by_cases hij : i = j
      · subst hij
        exact .accept n v hn hv rfl (Function.update_self i _ _) (Function.update_self i _ _)
          (Function.update_self i _ _)
      · exact .other ⟨Function.update_of_ne hij _ _, Function.update_of_ne hij _ _,
          Function.update_of_ne hij _ _⟩ List.prefix_rfl
  | abandon j =>
      obtain rfl := Option.some.inj hs
      by_cases hij : i = j
      · subst hij
        exact .abandon rfl (Function.update_self i _ _) (Function.update_self i _ _) rfl
      · exact .other ⟨Function.update_of_ne hij _ _, Function.update_of_ne hij _ _, rfl⟩ List.prefix_rfl

omit [DecidableEq ι] in
theorem InOrder.init (i : ι) : InOrder ({} : Publication ι α) i where
  interval := by simp
  order := List.Pairwise.nil
  asked := by simp
  answered := by simp

theorem InOrder.step {s s' : Publication ι α} {e : Event ι α} {i : ι} (h : InOrder s i)
    (hs : Publication.step s e = some s') : InOrder s' i := by
  obtain ⟨hinterval, horder, hask, hanswer⟩ := h
  cases readerStep hs i with
  | other hsame hgrows =>
      have hle := hgrows.length_le
      constructor <;> simp only [hsame.asked, hsame.answered, hsame.reads]
      · intro r hr
        exact ⟨(hinterval r hr).1, Nat.le_trans (hinterval r hr).2 hle⟩
      · exact horder
      · intro n hn
        exact ⟨Nat.le_trans (hask n hn).1 hle, (hask n hn).2⟩
      · intro v hv
        exact ⟨Nat.le_trans (hanswer v hv).1 hle, (hanswer v hv).2⟩
  | ask hidle hpublished hasked hanswered hreads =>
      constructor <;> simp only [hpublished, hasked, hanswered, hreads]
      · exact hinterval
      · exact horder
      · intro n hn
        obtain rfl := Option.some.inj hn
        exact ⟨Nat.le_refl _, fun r hr => (hinterval r hr).2⟩
      · -- no answer is on its way to a reader that has not asked
        intro v hv
        obtain ⟨_, n, hn, _⟩ := hanswer v hv
        rw [hidle] at hn
        exact absurd hn (by simp)
  | answer hwaits hpublished hasked hanswered hreads =>
      constructor <;> simp only [hpublished, hasked, hanswered, hreads]
      · exact hinterval
      · exact horder
      · exact hask
      · intro v hv
        obtain rfl := Option.some.inj hv
        obtain ⟨n, hn⟩ := Option.isSome_iff_exists.mp hwaits
        exact ⟨Nat.le_refl _, n, hn, (hask n hn).1⟩
  | accept n v hn hv hpublished hasked hanswered hreads =>
      obtain ⟨hvle, n', hn', hle⟩ := hanswer v hv
      obtain rfl := Option.some.inj (hn.symm.trans hn')
      constructor <;> simp only [hpublished, hasked, hanswered, hreads]
      · intro r hr
        rcases List.mem_append.mp hr with hr | hr
        · exact hinterval r hr
        · obtain rfl := List.mem_singleton.mp hr
          exact ⟨hle, hvle⟩
      · rw [List.pairwise_append]
        refine ⟨horder, List.pairwise_singleton _ _, ?_⟩
        intro r hr r' hr'
        obtain rfl := List.mem_singleton.mp hr'
        exact (hask n hn).2 r hr
      · simp
      · simp
  | abandon hpublished hasked hanswered hreads =>
      constructor <;> simp only [hpublished, hasked, hanswered, hreads]
      · exact hinterval
      · exact horder
      · simp
      · simp

/-- In every reachable state. -/
theorem inOrder_run {s : Publication ι α} {es : List (Event ι α)} (h : run step {} es = some s) (i : ι) :
    InOrder s i :=
  inv_run (I := fun s => InOrder s i) (InOrder.init i) (fun _ _ _ hI hs => hI.step hs) h

/-- **A question is not answered with less than what was published when it was asked**: the reads since a
state in which `i` had not asked. -/
theorem reads_since {s t : Publication ι α} {es : List (Event ι α)} {i : ι} (hidle : s.asked i = none)
    (h : run step s es = some t) : ∃ rs, t.reads i = s.reads i ++ rs ∧
      ∀ r ∈ rs, s.published.length ≤ r.asked := by
  have hinv : (∃ rs, t.reads i = s.reads i ++ rs ∧ ∀ r ∈ rs, s.published.length ≤ r.asked) ∧
      (∀ n ∈ t.asked i, s.published.length ≤ n) ∧ s.published.length ≤ t.published.length := by
    refine inv_run (I := fun t => (∃ rs, t.reads i = s.reads i ++ rs ∧
      ∀ r ∈ rs, s.published.length ≤ r.asked) ∧ (∀ n ∈ t.asked i, s.published.length ≤ n) ∧
      s.published.length ≤ t.published.length) ?_ ?_ h
    · exact ⟨⟨[], by simp, by simp⟩, by simp [hidle], Nat.le_refl _⟩
    · rintro t e t' ⟨⟨rs, hrs, hfresh⟩, hopen, hle⟩ hs
      cases readerStep hs i with
      | other hsame hgrows =>
          rw [hsame.asked, hsame.reads]
          exact ⟨⟨rs, hrs, hfresh⟩, hopen, Nat.le_trans hle hgrows.length_le⟩
      | ask hidle' hpublished hasked hanswered hreads =>
          rw [hasked, hreads, hpublished]
          refine ⟨⟨rs, hrs, hfresh⟩, ?_, hle⟩
          intro n hn
          obtain rfl := Option.some.inj hn
          exact hle
      | answer hwaits hpublished hasked hanswered hreads =>
          rw [hasked, hreads, hpublished]
          exact ⟨⟨rs, hrs, hfresh⟩, hopen, hle⟩
      | accept n v hn hv hpublished hasked hanswered hreads =>
          rw [hasked, hreads, hpublished]
          refine ⟨⟨rs ++ [⟨n, v⟩], by rw [hrs, List.append_assoc], ?_⟩, by simp, hle⟩
          intro r hr
          rcases List.mem_append.mp hr with hr | hr
          · exact hfresh r hr
          · obtain rfl := List.mem_singleton.mp hr
            exact hopen n hn
      | abandon hpublished hasked hanswered hreads =>
          rw [hasked, hreads, hpublished]
          exact ⟨⟨rs, hrs, hfresh⟩, by simp, hle⟩
  exact hinv.1

/-! ## The values read -/

/-- The values `xs` are those of the reads of `i`. -/
def Reads (s : Publication ι α) (i : ι) (xs : List α) : Prop :=
  xs.map some = (s.reads i).map fun r => s.valueAt r.answered

omit [DecidableEq ι] in
/-- The value of a version stays what it was. -/
theorem valueAt_grows {s s' : Publication ι α} (h : s.published <+: s'.published) {v : Nat}
    (hv : v ≤ s.published.length) : s'.valueAt v = s.valueAt v := by
  obtain ⟨xs, hxs⟩ := h
  rw [valueAt, ← hxs, List.take_append_of_le_length hv]
  rfl

omit [DecidableEq ι] in
/-- Only what is published counts. -/
theorem valueAt_congr {s s' : Publication ι α} (h : s'.published = s.published) :
    s'.valueAt = s.valueAt := by
  funext v
  rw [valueAt, h]
  rfl

omit [DecidableEq ι] in
theorem valueAt_length (s : Publication ι α) : s.valueAt s.published.length = s.published.getLast? := by
  rw [valueAt, List.take_length]

omit [DecidableEq ι] in
/-- A version that has a value is that of one of the values. -/
theorem valueAt_eq_some {s : Publication ι α} {v : Nat} {a : α} (hv : v ≤ s.published.length)
    (h : s.valueAt v = some a) : 0 < v ∧ s.published[v - 1]? = some a := by
  rw [valueAt, List.getLast?_take] at h
  split at h
  · exact absurd h (by simp)
  · next hpos =>
      have hpos : 0 < v := Nat.pos_of_ne_zero hpos
      have hlt : v - 1 < s.published.length := by omega
      rw [List.getElem?_eq_getElem hlt, Option.some_or] at h
      exact ⟨hpos, by rw [List.getElem?_eq_getElem hlt, h]⟩

omit [DecidableEq ι] in
/-- Reads that lie one behind the other, none of them asked before `m` values were published. -/
theorem readsInOrder_of_reads {s : Publication ι α} {rs : List Read} {xs : List α} {m : Nat}
    (hinterval : ∀ r ∈ rs, r.asked ≤ r.answered ∧ r.answered ≤ s.published.length)
    (horder : rs.Pairwise fun r r' => r.answered ≤ r'.asked) (hfresh : ∀ r ∈ rs, m ≤ r.asked)
    (hxs : xs.map some = rs.map fun r => s.valueAt r.answered) :
    ReadsInOrder (s.published.drop (m - 1)) xs := by
  refine ⟨rs.map fun r => r.answered - 1 - (m - 1), ?_, ?_⟩
  · rw [List.pairwise_map]
    refine (List.Pairwise.and_mem.mp horder).imp ?_
    rintro r r' ⟨_, hr', hle⟩
    have hle' := (hinterval r' hr').1
    omega
  · rw [hxs, List.map_map]
    apply List.map_congr_left
    intro r hr
    -- the version of a read has a value, because the read is one of `xs`
    have hmem : s.valueAt r.answered ∈ xs.map some := by
      rw [hxs]
      exact List.mem_map_of_mem hr
    obtain ⟨a, _, ha⟩ := List.mem_map.mp hmem
    obtain ⟨hpos, hget⟩ := valueAt_eq_some (hinterval r hr).2 ha.symm
    have hle := (hinterval r hr).1
    have hm := hfresh r hr
    rw [Function.comp_apply, ← ha, List.getElem?_drop, ← hget]
    congr 1
    omega

omit [DecidableEq ι] in
/-- **A reader never goes back.** -/
theorem InOrder.reads_inOrder {s : Publication ι α} {i : ι} {xs : List α} (h : InOrder s i)
    (hxs : s.Reads i xs) : ReadsInOrder s.published xs :=
  readsInOrder_of_reads (m := 0) h.interval h.order (fun _ _ => Nat.zero_le _) hxs

theorem published_grows {s t : Publication ι α} {es : List (Event ι α)} (i : ι)
    (h : run step s es = some t) : s.published <+: t.published := by
  refine inv_run (I := fun t => s.published <+: t.published) List.prefix_rfl ?_ h
  intro t e t' hgrows hs
  cases readerStep hs i with
  | other hsame hgrows' => exact hgrows.trans hgrows'
  | ask hidle hpublished hasked hanswered hreads => rwa [hpublished]
  | answer hwaits hpublished hasked hanswered hreads => rwa [hpublished]
  | accept n v hn hv hpublished hasked hanswered hreads => rwa [hpublished]
  | abandon hpublished hasked hanswered hreads => rwa [hpublished]

/-- **A reader that had not asked in `s` reads what was the last value then, or what was published
since.** -/
theorem reads_fresh {s t : Publication ι α} {es : List (Event ι α)} {i : ι} {xs ys : List α}
    (hidle : s.asked i = none) (hin : InOrder s i) (h : run step s es = some t) (hxs : s.Reads i xs)
    (hys : t.Reads i ys) :
    ∃ new, ys = xs ++ new ∧ ReadsInOrder (t.published.drop (s.published.length - 1)) new := by
  obtain ⟨rs, hrs, hfresh⟩ := reads_since hidle h
  have hin' : InOrder t i := inv_run (I := fun t => InOrder t i) hin (fun _ _ _ hI hs => hI.step hs) h
  have hgrows := published_grows i h
  -- the old reads have the values that they had
  have hold : (s.reads i).map (fun r => t.valueAt r.answered) = xs.map some := by
    rw [hxs]
    apply List.map_congr_left
    intro r hr
    exact valueAt_grows hgrows (hin.interval r hr).2
  rw [Reads, hrs, List.map_append, hold] at hys
  have hlen : xs.length ≤ ys.length := by
    have hlen := congrArg List.length hys
    simp only [List.length_map, List.length_append] at hlen
    omega
  have hsplit := congrArg (List.take xs.length) hys
  have hrest := congrArg (List.drop xs.length) hys
  rw [← List.map_take, List.take_left' (List.length_map _)] at hsplit
  rw [← List.map_drop, List.drop_left' (List.length_map _)] at hrest
  have htake : ys.take xs.length = xs := (List.map_inj_right fun _ _ => Option.some.inj).mp hsplit
  have horder := hin'.order
  rw [hrs] at horder
  refine ⟨ys.drop xs.length, ?_, ?_⟩
  · calc ys = ys.take xs.length ++ ys.drop xs.length := (List.take_append_drop _ _).symm
      _ = xs ++ ys.drop xs.length := by rw [htake]
  · refine readsInOrder_of_reads ?_ (List.pairwise_append.mp horder).2.1 hfresh hrest
    intro r hr
    exact hin'.interval r (by rw [hrs]; exact List.mem_append_right _ hr)

end Publication

end AdManager.Lib
