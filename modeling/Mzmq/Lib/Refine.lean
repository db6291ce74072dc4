/-!
# Refinement

A machine answers a call in a state with an answer and a new state. One machine refines another when, wherever their states
are related, every call gets one answer from both and leaves related states: then no sequence of calls tells them apart.

Nothing here depends on the program that uses it.
-/

namespace Refine

variable {σ α ι ρ : Type}

/-- Make the calls of a list one after the other: the state they leave, and their answers. -/
def calls (step : σ → ι → σ × ρ) : σ → List ι → σ × List ρ
  | s, [] => (s, [])
  | s, i :: is =>
    let r := calls step (step s i).1 is
    (r.1, (step s i).2 :: r.2)

/-- Every call on related states gets one answer, and leaves related states. -/
def Refines (step : σ → ι → σ × ρ) (spec : α → ι → α × ρ) (Rel : σ → α → Prop) : Prop :=
  ∀ s a i, Rel s a → (step s i).2 = (spec a i).2 ∧ Rel (step s i).1 (spec a i).1

variable {step : σ → ι → σ × ρ} {spec : α → ι → α × ρ} {Rel : σ → α → Prop}

/-- The refinement rule: so do all sequences of calls. -/
theorem Refines.calls (h : Refines step spec Rel) (is : List ι) :
    ∀ s a, Rel s a → (calls step s is).2 = (Refine.calls spec a is).2 ∧
      Rel (Refine.calls step s is).1 (Refine.calls spec a is).1 := by
  induction is with
  | nil => exact fun s a hr => ⟨rfl, hr⟩
  | cons i is ih =>
    intro s a hr
    obtain ⟨hans, hnext⟩ := h s a i hr
    obtain ⟨hrest, hend⟩ := ih _ _ hnext
    refine ⟨?_, hend⟩
    rw [Refine.calls, Refine.calls, hans, hrest]

end Refine
