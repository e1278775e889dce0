import Mathlib.Tactic

/-!
# Machines that answer

A machine answers every input and moves to its next state. When the steps of two machines answer
alike and keep a relation between the states, so do whole runs.
-/

namespace SoftEtherVpn.Foundation

variable {σ τ ι ο : Type*}

/-- The answers of a machine to a list of inputs, and the state in which it ends. -/
def answers (step : σ → ι → ο × σ) : σ → List ι → List ο × σ
  | s, [] => ([], s)
  | s, i :: is => ((step s i).1 :: (answers step (step s i).2 is).1, (answers step (step s i).2 is).2)

theorem answers_simulation {step : σ → ι → ο × σ} {step' : τ → ι → ο × τ} {R : σ → τ → Prop}
    (hstep : ∀ s t i, R s t → (step s i).1 = (step' t i).1 ∧ R (step s i).2 (step' t i).2)
    {s : σ} {t : τ} (h : R s t) (is : List ι) :
    (answers step s is).1 = (answers step' t is).1 ∧
      R (answers step s is).2 (answers step' t is).2 := by
  induction is generalizing s t with
  | nil => exact ⟨rfl, h⟩
  | cons i is ih =>
    obtain ⟨hanswer, hnext⟩ := hstep s t i h
    obtain ⟨hanswers, hend⟩ := ih hnext
    refine ⟨?_, hend⟩
    rw [answers, answers, hanswer, hanswers]

end SoftEtherVpn.Foundation
