/-
# AdManager.Player.PlayList — `NotifyPlay` plays the list round robin.

Every `NotifyPlay`, and so the end of every item played, turns `_playList` until it has moved an item of
type 1 that has a file, and opens that one. The list is never sorted or copied, so where the next call
starts depends on how many items this one skipped.

The loop is `seek` of `AdManager.Lib.RoundRobin` at the test for a playable item. Which position of the
list a call plays is read off the same loop on the items with their positions attached, which keeps
equal items apart.
-/
import AdManager.Lib.RoundRobin
import AdManager.Business.Player

namespace AdManager.Player

open AdManager.Lib AdManager.Business

/-! ## Consecutive calls -/

/-- The test of the loop: a video that has its file. -/
def playable (item : PlayItem) : Bool := item.type = 1 && item.adfile.isSome

/-- `n` calls of `NotifyPlay` in a row: the list after them, and what each one opened. -/
def notifyPlays : Nat → List PlayItem → List PlayItem × List (Option PlayItem)
  | 0, playList => (playList, [])
  | n + 1, playList =>
      let out := notifyPlay playList.length playList
      let rest := notifyPlays n out.1
      (rest.1, out.2 :: rest.2)

/-- The positions of the playable items, from the front. -/
def playablePositions (playList : List PlayItem) : List Nat :=
  (playList.zipIdx.filter (playable ∘ Prod.fst)).map Prod.snd

/-- The positions of the list that `n` calls in a row play: what the loop serves on the items with
their positions attached. -/
def positionsPlayed (n : Nat) (playList : List PlayItem) : List (Option Nat) :=
  (serves (playable ∘ Prod.fst) n playList.zipIdx).2.map (Option.map Prod.snd)

/-- `NotifyPlay` is the loop of the round robin. -/
theorem notifyPlay_eq_seek (count : Nat) (playList : List PlayItem) :
    notifyPlay count playList = seek playable count playList := by
  induction count generalizing playList with
  | zero => rfl
  | succ count ih =>
      cases playList with
      | nil => rfl
      | cons item rest =>
          have htest : (item.type = 1 ∧ item.adfile.isSome) ↔ playable item = true := by
            simp [playable]
          simp only [notifyPlay, seek, htest, ih]

theorem notifyPlays_eq_serves (n : Nat) (playList : List PlayItem) :
    notifyPlays n playList = serves playable n playList := by
  induction n generalizing playList with
  | zero => rfl
  | succ n ih => simp only [notifyPlays, serves, serve, notifyPlay_eq_seek, ih]

/-- One call: with nothing playable nothing happens; otherwise the list is turned and some item is
opened. -/
theorem notifyPlay_cases (playList : List PlayItem) :
    (playList.any playable = false ∧ notifyPlay playList.length playList = (playList, none)) ∨
    ∃ turned item, playList.any playable = true ∧
      notifyPlay playList.length playList = (turned, some item) := by
  rw [notifyPlay_eq_seek]
  rcases serve_cases playable playList with ⟨hl, h⟩ | ⟨skip, item, rest, hsplit, _, _, hitem, h⟩
  · exact Or.inl ⟨by simpa [List.filter_eq_nil_iff] using hl, h⟩
  · refine Or.inr ⟨_, item, List.any_eq_true.mpr ⟨item, ?_, hitem⟩, h⟩
    rw [hsplit]
    simp

/-- The list is only turned. -/
theorem notifyPlay_any (playList : List PlayItem) :
    (notifyPlay playList.length playList).1.any playable = playList.any playable := by
  rw [notifyPlay_eq_seek]
  exact (serve_isRotated playable playList).perm.any_eq

/-! ## Positions -/

theorem mem_playablePositions {playList : List PlayItem} {i : Nat} :
    i ∈ playablePositions playList ↔ ∃ item, playList[i]? = some item ∧ playable item := by
  simp only [playablePositions, List.mem_map, List.mem_filter, Function.comp_apply, Prod.exists,
    exists_eq_right, List.mk_mem_zipIdx_iff_getElem?]

/-- The positions stand in the order of the list. -/
theorem playablePositions_sorted (playList : List PlayItem) :
    (playablePositions playList).Pairwise (· < ·) := by
  have hsub : (playablePositions playList).Sublist (playList.zipIdx.map Prod.snd) :=
    List.filter_sublist.map Prod.snd
  rw [List.zipIdx_map_snd] at hsub
  exact List.Pairwise.sublist hsub List.pairwise_lt_range'

/-- The positions played are the playable ones, taken cyclically from the front. -/
theorem positionsPlayed_eq (n : Nat) (playList : List PlayItem) :
    positionsPlayed n playList =
      (List.range n).map fun k => ((playablePositions playList).rotate k).head? := by
  rw [positionsPlayed, serves_served, List.map_map]
  refine List.map_congr_left fun k _ => ?_
  rw [Function.comp_apply, playablePositions, ← List.map_rotate, List.head?_map]

/-- What the loop serves on the items with their positions attached stands at that position. -/
theorem getElem?_of_mem_serves {n : Nat} {playList : List PlayItem} {x : PlayItem × Nat}
    (h : some x ∈ (serves (playable ∘ Prod.fst) n playList.zipIdx).2) :
    playList[x.2]? = some x.1 := by
  rw [serves_served, List.mem_map] at h
  obtain ⟨k, _, hk⟩ := h
  have hfilter := List.mem_rotate.mp (List.mem_of_mem_head? hk)
  exact List.mk_mem_zipIdx_iff_getElem?.mp (List.mem_of_mem_filter hfilter)

/-- What a call opens is the item at the position it plays. -/
theorem opened_eq (n : Nat) (playList : List PlayItem) :
    (notifyPlays n playList).2 =
      (positionsPlayed n playList).map fun pos => pos.bind fun i => playList[i]? := by
  have hopened : (notifyPlays n playList).2 =
      (serves (playable ∘ Prod.fst) n playList.zipIdx).2.map (Option.map Prod.fst) := by
    have hattach := serves_map (p := playable) Prod.fst n playList.zipIdx
    rw [List.zipIdx_map_fst] at hattach
    rw [notifyPlays_eq_serves, hattach]
  rw [hopened, positionsPlayed, List.map_map]
  refine List.map_congr_left fun o ho => ?_
  cases o with
  | none => rfl
  | some x => exact (getElem?_of_mem_serves ho).symm

/-! ## Round robin -/

/-- **Playback is round robin.** However many calls in a row, on whatever list: the list is only
rotated; with nothing playable nothing is opened and the list stays as it was; otherwise call `k` opens
the item at the `k`-th playable position, counted cyclically from the front, and between two successive
plays of one position every other playable position is played exactly once. -/
theorem notifyPlays_roundRobin (playList : List PlayItem) (n : Nat) :
    (notifyPlays n playList).1 ~r playList ∧
    (playablePositions playList = [] →
      notifyPlays n playList = (playList, List.replicate n none)) ∧
    (playablePositions playList ≠ [] →
      (∀ k < n, ∃ i item,
        (playablePositions playList)[k % (playablePositions playList).length]? = some i ∧
        (positionsPlayed n playList)[k]? = some (some i) ∧ playList[i]? = some item ∧
        (notifyPlays n playList).2[k]? = some (some item)) ∧
      ∀ i j, i < j → j < n → (positionsPlayed n playList)[i]? = (positionsPlayed n playList)[j]? →
        (∀ k, i < k → k < j →
          (positionsPlayed n playList)[k]? ≠ (positionsPlayed n playList)[i]?) →
        ∀ pos ∈ playablePositions playList, (positionsPlayed n playList)[i]? ≠ some (some pos) →
          (((positionsPlayed n playList).drop (i + 1)).take (j - (i + 1))).count (some pos) = 1) := by
  have hget : ∀ k < n, (positionsPlayed n playList)[k]? =
      some ((playablePositions playList).rotate k).head? := by
    intro k hk
    rw [positionsPlayed_eq, List.getElem?_map, List.getElem?_range hk, Option.map_some]
  refine ⟨?_, ?_, fun hne => ⟨?_, ?_⟩⟩
  · rw [notifyPlays_eq_serves]
    exact serves_isRotated playable n playList
  · intro hnone
    rw [notifyPlays_eq_serves]
    refine serves_none n (List.filter_eq_nil_iff.mpr fun item hitem hplay => ?_)
    obtain ⟨i, hi⟩ := List.getElem?_of_mem hitem
    exact List.not_mem_nil (hnone ▸ mem_playablePositions.mpr ⟨item, hi, hplay⟩)
  · intro k hk
    have hmod := Nat.mod_lt k (List.length_pos_of_ne_nil hne)
    have hplayed := hget k hk
    rw [head?_rotate_mod hne, List.getElem?_eq_getElem hmod] at hplayed
    obtain ⟨item, hitem, _⟩ := mem_playablePositions.mp (List.getElem_mem hmod)
    refine ⟨_, item, List.getElem?_eq_getElem hmod, hplayed, hitem, ?_⟩
    rw [opened_eq, List.getElem?_map, hplayed, Option.map_some, Option.bind_some, hitem]
  · intro i j hij hj hsame hbetween pos hpos hother
    have hi : i < n := hij.trans hj
    rw [hget i hi, hget j hj, Option.some.injEq] at hsame
    have hstretch : ((positionsPlayed n playList).drop (i + 1)).take (j - (i + 1)) =
        (List.range' (i + 1) (j - (i + 1))).map fun k =>
          ((playablePositions playList).rotate k).head? := by
      rw [positionsPlayed_eq, ← List.map_drop, ← List.map_take, List.range_eq_range',
        List.drop_range', List.take_range'_of_length_ge (by omega), Nat.mul_one, Nat.zero_add]
    rw [hstretch]
    refine count_between ((playablePositions_sorted playList).imp Nat.ne_of_lt) hpos hij hsame ?_ ?_
    · intro k hik hkj heq
      apply hbetween k hik hkj
      rw [hget k (hkj.trans hj), hget i hi, heq]
    · intro heq
      exact hother (by rw [hget i hi, heq])

end AdManager.Player
