/-
# Tickers that are never late

A ticker whose ticks are taken in time keeps to a grid: its deadlines are the multiples of its
period, counted from its start.
-/
import CheckIn.Ticker
import Mathlib.Tactic.Common

namespace CheckIn

namespace Ticker

/-- The ticker after some ticks.  The period and the start are in milliseconds. -/
def grid (period start done : Nat) : Ticker where
  deadline := (start + period * (done + 1)) * nanosPerMilli
  period := period * nanosPerMilli

variable {period start done now : Nat}

lemma every_eq_grid (period start : Nat) :
    every (period * nanosPerMilli) (start * nanosPerMilli) = grid period start 0 := by
  simp only [every, grid, Nat.zero_add, Nat.mul_one, Nat.add_mul]

lemma dueAt_grid (period start done : Nat) :
    (grid period start done).dueAt = start + period * (done + 1) := by
  simp only [dueAt, grid, nanosPerMilli]
  omega

lemma isDue_grid :
    (grid period start done).isDue now = true ↔ start + period * (done + 1) ≤ now := by
  rw [isDue, decide_eq_true_iff, dueAt_grid]

lemma grid_le_succ (period start done : Nat) :
    start + period * done ≤ start + period * (done + 1) :=
  Nat.add_le_add_left (Nat.mul_le_mul_left _ (Nat.le_succ _)) _

/-- A tick that is not late keeps to the grid. -/
lemma tick_grid (h : now ≤ start + period * (done + 1)) :
    (grid period start done).tick (now * nanosPerMilli) = grid period start (done + 1) := by
  have hle : now * nanosPerMilli ≤ (start + period * (done + 1)) * nanosPerMilli :=
    Nat.mul_le_mul_right _ h
  have hnext : (start + period * (done + 1)) * nanosPerMilli + period * nanosPerMilli =
      (start + period * (done + 1 + 1)) * nanosPerMilli := by
    rw [← Nat.add_mul, Nat.add_assoc, ← Nat.mul_succ]
  unfold tick
  rw [if_neg]
  · simp only [grid, hnext]
  · simp only [grid]
    omega

end Ticker

end CheckIn
