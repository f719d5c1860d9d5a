/-
# AdManager.Md5.Rolled — `transform` as a loop.

`md5.cc` writes the 64 steps of `transform` out, and permutes the registers from call to call instead of
moving their values. The algorithm is a loop of one step, whose shift, whose index into the block and whose
constant are formulas in the number of the step. `Line.run_view` is the simulation of a call by a turn of the
loop: the registers as the next call sees them are those as this call sees them, moved on by one.
-/
import AdManager.Md5.MD5
import AdManager.Md5.Sines

namespace AdManager.Md5

open AdManager.Wire

/-! ## The loop -/

/-- A turn: the registers move on by one, and the new value goes where the next turn has its `b`. -/
def turn (f : Round) (x s ac : UInt32) (r : Regs) : Regs :=
  { a := r.d, b := f.apply r.a r.b r.c r.d x s ac, c := r.b, d := r.c }

/-- The function of step `i`. -/
def roundOf (i : Nat) : Round :=
  match i / 16 with
  | 0 => .FF
  | 1 => .GG
  | 2 => .HH
  | _ => .II

/-- The word of the block that step `i` reads. -/
def Round.index (i : Nat) : Round → Nat
  | .FF => i % 16
  | .GG => (5 * i + 1) % 16
  | .HH => (3 * i + 5) % 16
  | .II => 7 * i % 16

/-- The shifts of a round, which come round every four steps. -/
def Round.shifts : Round → List UInt32
  | .FF => [7, 12, 17, 22]
  | .GG => [5, 9, 14, 20]
  | .HH => [4, 11, 16, 23]
  | .II => [6, 10, 15, 21]

/-- Step `i` on the words `x`. -/
def loopStep (x : List UInt32) (r : Regs) (i : Nat) : Regs :=
  turn (roundOf i) (x.getD ((roundOf i).index i) 0) ((roundOf i).shifts.getD (i % 4) 0)
    (sineConstant i) r

/-- The 64 steps. -/
def loop (x : List UInt32) (r : Regs) : Regs := (List.range 64).foldl (loopStep x) r

/-! ## The calls -/

/-- The registers in the order in which a call hands them over. -/
def Order.view : Order → Regs → Regs
  | .abcd, r => r
  | .dabc, r => { a := r.d, b := r.a, c := r.b, d := r.c }
  | .cdab, r => { a := r.c, b := r.d, c := r.a, d := r.b }
  | .bcda, r => { a := r.b, b := r.c, c := r.d, d := r.a }

/-- The order of the next call. -/
def Order.next : Order → Order
  | .abcd => .dabc
  | .dabc => .cdab
  | .cdab => .bcda
  | .bcda => .abcd

/-- The order of call `i`. -/
def orderAt : Nat → Order
  | 0 => .abcd
  | i + 1 => (orderAt i).next

/-- **A call is a turn of the loop**, seen from the order of the next call. -/
theorem Line.run_view (l : Line) (x : List UInt32) (r : Regs) :
    l.order.next.view (l.run x r) = turn l.round (x.getD l.k 0) l.s l.ac (l.order.view r) := by
  obtain ⟨round, order, k, s, ac⟩ := l
  cases order <;> rfl

/-- The line that the formulas give for step `i`. -/
def lineAt (i : Nat) : Line where
  round := roundOf i
  order := orderAt i
  k := (roundOf i).index i
  s := (roundOf i).shifts.getD (i % 4) 0
  ac := sineConstant i

/-- The table of the source is what the formulas give. -/
theorem lines_eq : lines = (List.range 64).map lineAt := by decide +kernel

/-- The first `n` calls are `n` turns. -/
theorem run_lines (x : List UInt32) (r : Regs) (n : Nat) :
    (orderAt n).view (((List.range n).map lineAt).foldl (fun r l => l.run x r) r) =
      (List.range n).foldl (loopStep x) r := by
  induction n with
  | zero => rfl
  | succ n ih =>
      rw [List.range_succ, List.map_append, List.foldl_append, List.foldl_append, ← ih]
      exact (lineAt n).run_view x _

/-- **The 64 calls of `transform` compute the loop** of 64 like steps over the words of the block. -/
theorem transform_eq_loop (state : Regs) (block : Bytes) :
    transform state block =
      { a := state.a + (loop (decode block) state).a
        b := state.b + (loop (decode block) state).b
        c := state.c + (loop (decode block) state).c
        d := state.d + (loop (decode block) state).d } := by
  have hlines : lines.foldl (fun r l => l.run (decode block) r) state = loop (decode block) state := by
    -- after 64 calls the order is the first one again
    have horder : orderAt 64 = .abcd := by decide
    have hrun := run_lines (decode block) state 64
    rw [horder, Order.view, ← lines_eq] at hrun
    rw [hrun, loop]
  rw [transform, hlines]

end AdManager.Md5
