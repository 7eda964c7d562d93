/-
# Systems and their runs

A system goes from state to state by acts.  A run is any sequence of acts, each of which can happen
after the ones before it; it is known by its moves, the last one first.  What is proved here does
not depend on what the states and the acts are, and so it holds of a service as well as of a reaper
on its own.

The moves of a run tell which part of it came before each of them (`System.Run.of_suffix`).  If no
act turns the clock back, they are in the order of their instants (`System.Run.instant_bounds`), and
if every act extends the journal, they tell what was added to it (`System.Run.journal_eq`).
-/
import Mathlib.Tactic.Common

namespace CheckIn

/-- Something that goes from state to state by acts. -/
structure System (σ α μ : Type) where
  /-- Whether an act can happen. -/
  can : σ → α → Bool
  /-- What an act leaves behind. -/
  after : σ → α → σ
  /-- The move that an act makes from a state. -/
  move : σ → α → μ

namespace System

variable {σ α μ : Type}

/-- A run that begins with `s₀`: its moves, the last one first, and the state after them. -/
inductive Run (system : System σ α μ) (s₀ : σ) : List μ → σ → Prop
  | nil : Run system s₀ [] s₀
  | cons {ms : List μ} {s : σ} {act : α} (hr : Run system s₀ ms s)
      (h : system.can s act = true) :
      Run system s₀ (system.move s act :: ms) (system.after s act)

variable {system : System σ α μ} {s₀ s : σ} {ms past : List μ} {m : μ}

/-- What holds at first and is preserved by every act holds of all that is reached. -/
theorem Run.invariant (I : σ → Prop) (h₀ : I s₀)
    (hstep : ∀ s act, I s → system.can s act = true → I (system.after s act))
    (hr : system.Run s₀ ms s) : I s := by
  induction hr with
  | nil => exact h₀
  | cons _ h ih => exact hstep _ _ ih h

/-- The moves up to one of them are a run, and the move can be made after them. -/
theorem Run.of_suffix (hr : system.Run s₀ ms s) (hm : m :: past <:+ ms) :
    ∃ before act, system.Run s₀ past before ∧ system.can before act = true ∧
      system.move before act = m := by
  induction hr with
  | nil => simp at hm
  | @cons _ before act hr h ih =>
    rcases List.suffix_cons_iff.mp hm with heq | hm
    · obtain ⟨rfl, rfl⟩ := List.cons.inj heq
      exact ⟨before, act, hr, h, rfl⟩
    · exact ih hm

section Clock

variable (now : σ → Nat) (instant : μ → Nat)

/-- A run ends no earlier than it begins. -/
theorem Run.now_le (hle : ∀ s act, system.can s act = true → now s ≤ now (system.after s act))
    (hr : system.Run s₀ ms s) : now s₀ ≤ now s := by
  induction hr with
  | nil => exact Nat.le_refl _
  | cons _ h ih => exact Nat.le_trans ih (hle _ _ h)

/-- Every move of a run is made between its beginning and its end. -/
theorem Run.instant_bounds (hinstant : ∀ s act, instant (system.move s act) = now s)
    (hle : ∀ s act, system.can s act = true → now s ≤ now (system.after s act))
    (hr : system.Run s₀ ms s) (hm : m ∈ ms) : now s₀ ≤ instant m ∧ instant m ≤ now s := by
  induction hr with
  | nil => simp at hm
  | cons hr h ih =>
    rcases List.mem_cons.mp hm with rfl | hm
    · rw [hinstant]
      exact ⟨hr.now_le now hle, hle _ _ h⟩
    · exact ⟨(ih hm).1, Nat.le_trans (ih hm).2 (hle _ _ h)⟩

end Clock

/-- The journal is what the moves have added to it. -/
theorem Run.journal_eq {ε : Type} (journal : σ → List ε) (added : μ → List ε)
    (hadded : ∀ s act, system.can s act = true →
      journal (system.after s act) = added (system.move s act) ++ journal s)
    (hr : system.Run s₀ ms s) : journal s = ms.flatMap added ++ journal s₀ := by
  induction hr with
  | nil => rfl
  | cons _ h ih => rw [hadded _ _ h, ih, List.flatMap_cons, List.append_assoc]

/-! ## Concrete runs -/

/-- Does one act after the other, if all of them can happen. -/
def perform (system : System σ α μ) (s : σ) (ms : List μ) : List α → Option (List μ × σ)
  | [] => some (ms, s)
  | act :: acts =>
    if system.can s act then perform system (system.after s act) (system.move s act :: ms) acts
    else none

/-- What is performed is a run. -/
theorem run_of_perform {acts : List α} {later : List μ} {s' : σ} (hr : system.Run s₀ ms s)
    (h : system.perform s ms acts = some (later, s')) : system.Run s₀ later s' := by
  induction acts generalizing ms s with
  | nil =>
    obtain ⟨rfl, rfl⟩ := Prod.mk.inj (Option.some.inj h)
    exact hr
  | cons act acts ih =>
    rw [perform] at h
    split at h
    · next hcan => exact ih (hr.cons hcan) h
    · cases h

end System

end CheckIn
