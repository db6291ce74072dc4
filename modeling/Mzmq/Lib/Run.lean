import Mathlib.Data.List.Induction

/-!
# Runs of a machine

A machine answers an operation in a state with a result and a new state. A run is the list of its steps, each with the state
before, the operation, the result and the state after. A step whose result ends the process (`halts`) is the last of its run.

Nothing here depends on the program that uses it.
-/

namespace Run

variable {σ ι ρ : Type}

/-- One step of a run. -/
structure Event (σ ι ρ : Type) where
  pre : σ
  op : ι
  res : ρ
  post : σ

/-- `Runs step halts s h t`: from `s`, the machine makes the steps of `h` and reaches `t`. -/
inductive Runs (step : σ → ι → σ × ρ) (halts : ρ → Bool) (s : σ) : List (Event σ ι ρ) → σ → Prop where
  | nil : Runs step halts s [] s
  | snoc {h : List (Event σ ι ρ)} {t : σ} (i : ι) : Runs step halts s h t → (∀ ev ∈ h, halts ev.res = false) →
      Runs step halts s (h ++ [⟨t, i, (step t i).2, (step t i).1⟩]) (step t i).1

variable {step : σ → ι → σ × ρ} {halts : ρ → Bool} {s t : σ} {h : List (Event σ ι ρ)}

/-- The invariant rule, with the history of the run: a property that holds at the start and is kept by every step that
follows no halting result holds at the end of every run. -/
theorem Runs.invariant (I : List (Event σ ι ρ) → σ → Prop) (h0 : I [] s)
    (hstep : ∀ h t i, (∀ ev ∈ h, halts ev.res = false) → I h t →
      I (h ++ [⟨t, i, (step t i).2, (step t i).1⟩]) (step t i).1)
    (hr : Runs step halts s h t) : I h t := by
  induction hr with
  | nil => exact h0
  | snoc i _ hn ih => exact hstep _ _ i hn ih

/-- The invariant rule for a property of states. -/
theorem Runs.state_invariant (I : σ → Prop) (h0 : I s) (hstep : ∀ t i, I t → I (step t i).1)
    (hr : Runs step halts s h t) : I t :=
  hr.invariant (fun _ t => I t) h0 fun _ t i _ ht => hstep t i ht

/-- The invariant rule for a property that the steps keep as long as they do not halt. -/
theorem Runs.live_invariant (I : σ → Prop) (h0 : I s) (hstep : ∀ t i, I t → halts (step t i).2 = false → I (step t i).1)
    (hr : Runs step halts s h t) : (∀ ev ∈ h, halts ev.res = false) → I t := by
  refine hr.invariant (fun h t => (∀ ev ∈ h, halts ev.res = false) → I t) (fun _ => h0) ?_
  intro h t i hlive ih hn
  exact hstep t i (ih hlive) (hn _ (List.mem_append_right _ (List.mem_singleton_self _)))

/-- Two machines that make the same steps wherever an invariant holds make the same runs. -/
theorem Runs.congr {step' : σ → ι → σ × ρ} (I : σ → Prop) (h0 : I s) (heq : ∀ t i, I t → step' t i = step t i)
    (hstep : ∀ t i, I t → halts (step t i).2 = false → I (step t i).1) (hr : Runs step halts s h t) :
    Runs step' halts s h t := by
  induction hr with
  | nil => exact .nil
  | @snoc h t i hr hn ih =>
    have hi : I t := hr.live_invariant I h0 hstep hn
    rw [← heq t i hi]
    exact .snoc i ih hn

/-- Every step of a run is a step of the machine from a state that the run reached before, no earlier step having halted. -/
theorem Runs.event (hr : Runs step halts s h t) : ∀ ev ∈ h, ev.res = (step ev.pre ev.op).2 ∧
    ev.post = (step ev.pre ev.op).1 ∧ ∃ h', Runs step halts s h' ev.pre ∧ ∀ e ∈ h', halts e.res = false := by
  induction hr with
  | nil => simp
  | snoc i hr hn ih =>
    intro ev hev
    rcases List.mem_append.mp hev with hev | hev
    · exact ih ev hev
    · rw [List.mem_singleton] at hev
      subst hev
      exact ⟨rfl, rfl, _, hr, hn⟩

/-- A run of no steps stays where it is. -/
theorem Runs.nil_eq (hr : Runs step halts s [] t) : t = s := by
  generalize hh : ([] : List (Event σ ι ρ)) = h at hr
  cases hr with
  | nil => rfl
  | snoc => simp at hh

/-- The first steps of a run are a run. -/
theorem Runs.take {h1 h2 : List (Event σ ι ρ)} (hr : Runs step halts s (h1 ++ h2) t) :
    ∃ t', Runs step halts s h1 t' := by
  generalize hh : h1 ++ h2 = h at hr
  induction hr generalizing h2 with
  | nil =>
    rw [List.append_eq_nil_iff] at hh
    rw [hh.1]
    exact ⟨s, .nil⟩
  | @snoc h' t' i hr hn ih =>
    rcases List.eq_nil_or_concat h2 with rfl | ⟨h3, x, rfl⟩
    · rw [List.append_nil] at hh
      rw [hh]
      exact ⟨_, .snoc i hr hn⟩
    · rw [List.concat_eq_append, ← List.append_assoc] at hh
      exact ih (List.append_inj' hh rfl).1

/-- The steps before a given step of a run form a run to where that step was made. -/
theorem Runs.before {h1 h2 : List (Event σ ι ρ)} {ev : Event σ ι ρ} (hr : Runs step halts s (h1 ++ ev :: h2) t) :
    Runs step halts s h1 ev.pre ∧ ev.res = (step ev.pre ev.op).2 ∧ ev.post = (step ev.pre ev.op).1 := by
  generalize hh : h1 ++ ev :: h2 = h at hr
  induction hr generalizing h2 with
  | nil => simp at hh
  | @snoc h' t' i hr hn ih =>
    rcases List.eq_nil_or_concat h2 with rfl | ⟨h3, x, rfl⟩
    · obtain ⟨rfl, he⟩ := List.append_inj' hh rfl
      simp only [List.cons.injEq, and_true] at he
      subst he
      exact ⟨hr, rfl, rfl⟩
    · rw [List.concat_eq_append] at hh
      have hc : (h1 ++ ev :: h3) ++ [x] = h' ++ [⟨t', i, (step t' i).2, (step t' i).1⟩] := by
        rw [← hh]
        simp
      exact ih (List.append_inj' hc rfl).1

/-- The steps after a given step of a run form a run from the state that step left. -/
theorem Runs.suffix {h1 h2 : List (Event σ ι ρ)} {ev : Event σ ι ρ} (hr : Runs step halts s (h1 ++ ev :: h2) t) :
    Runs step halts ev.post h2 t := by
  generalize hh : h1 ++ ev :: h2 = h at hr
  induction hr generalizing h2 with
  | nil => simp at hh
  | @snoc h' t' i hr hn ih =>
    rcases List.eq_nil_or_concat h2 with rfl | ⟨h3, x, rfl⟩
    · have hc : h1 ++ [ev] = h' ++ [⟨t', i, (step t' i).2, (step t' i).1⟩] := hh
      obtain ⟨_, he⟩ := List.append_inj' hc rfl
      simp only [List.cons.injEq, and_true] at he
      subst he
      exact .nil
    · rw [List.concat_eq_append] at hh ⊢
      have hc : (h1 ++ ev :: h3) ++ [x] = h' ++ [⟨t', i, (step t' i).2, (step t' i).1⟩] := by
        rw [← hh]
        simp
      obtain ⟨h4, hx⟩ := List.append_inj' hc rfl
      simp only [List.cons.injEq, and_true] at hx
      subst hx
      refine .snoc i (ih h4) ?_
      intro e he
      exact hn e (by rw [← h4]; simp [he])

/-- Make the operations of a list one after the other, up to a halting result. -/
def exec (step : σ → ι → σ × ρ) (halts : ρ → Bool) : σ → List ι → List (Event σ ι ρ) × σ
  | s, [] => ([], s)
  | s, i :: is =>
    if halts (step s i).2 then ([⟨s, i, (step s i).2, (step s i).1⟩], (step s i).1)
    else
      let r := exec step halts (step s i).1 is
      (⟨s, i, (step s i).2, (step s i).1⟩ :: r.1, r.2)

/-- A step that does not halt is followed by the rest. -/
theorem exec_cons {i : ι} (hi : halts (step s i).2 = false) (is : List ι) :
    exec step halts s (i :: is) = (⟨s, i, (step s i).2, (step s i).1⟩ :: (exec step halts (step s i).1 is).1,
      (exec step halts (step s i).1 is).2) := by
  rw [exec, if_neg (by simp [hi])]

/-- A step that does not halt, then a run, is a run. -/
theorem Runs.cons {i : ι} (hi : halts (step s i).2 = false) (hr : Runs step halts (step s i).1 h t) :
    Runs step halts s (⟨s, i, (step s i).2, (step s i).1⟩ :: h) t := by
  induction hr with
  | nil => exact .snoc (h := []) i .nil (by simp)
  | snoc j hr hn ih =>
    refine .snoc j ih ?_
    intro ev hev
    rcases List.mem_cons.mp hev with rfl | hev
    · exact hi
    · exact hn ev hev

/-- What `exec` computes is a run. -/
theorem runs_exec (s : σ) (is : List ι) : Runs step halts s (exec step halts s is).1 (exec step halts s is).2 := by
  induction is generalizing s with
  | nil => exact .nil
  | cons i is ih =>
    unfold exec
    split
    · exact .snoc (h := []) i .nil (by simp)
    · rename_i hi
      exact .cons (by simpa using hi) (ih _)

end Run
