import Mathlib.Algebra.GroupWithZero.Nat
import Mzmq.Lib.Run

/-!
# Simulation of runs

A specification says what may happen in its own steps: from a state, an occasion leads to a state with an answer. A run of a
machine is matched by a path of the specification, event by event: every event by the occasions that it brings about, none,
one or several, with the same to be seen of both (`Matched`). The rule is that of forward simulation (`Runs.matched`): where
the machine and the specification are related, every step of the machine is matched, and leaves them related.

Nothing here depends on the program that uses it.
-/

namespace Run

variable {σ ι ρ α κ ω : Type}

/-- A path of a specification: the occasions of a list one after the other, with their answers. -/
inductive Path (spec : α → κ → ω → α → Prop) : α → List κ → List ω → α → Prop where
  | nil {a : α} : Path spec a [] [] a
  | cons {a b c : α} {k : κ} {w : ω} {ks : List κ} {ws : List ω} : spec a k w b → Path spec b ks ws c →
      Path spec a (k :: ks) (w :: ws) c

variable {spec : α → κ → ω → α → Prop} {a b c : α} {ks js : List κ} {ws us : List ω}

theorem Path.single {k : κ} {w : ω} (h : spec a k w b) : Path spec a [k] [w] b := .cons h .nil

theorem Path.append (h : Path spec a ks ws b) (h' : Path spec b js us c) : Path spec a (ks ++ js) (ws ++ us) c := by
  induction h with
  | nil => exact h'
  | cons hs _ ih => exact .cons hs (ih h')

/-- The steps of a path are for its occasions. -/
theorem Path.restrict (Q : κ → Prop) (h : Path spec a ks ws b) (hks : ∀ k ∈ ks, Q k) :
    Path (fun a k w b => spec a k w b ∧ Q k) a ks ws b := by
  induction h with
  | nil => exact .nil
  | cons hs _ ih => exact .cons ⟨hs, hks _ List.mem_cons_self⟩ (ih fun k hk => hks k (List.mem_cons_of_mem _ hk))

/-- Accounting along a path. Every step that leads to a state with `P` comes from one, and its cost is paid for by what it gains
and by the credit `φ`; then so is the cost of a path that leads to a state with `P`. -/
theorem Path.accounts (P : α → Prop) (cost : ω → Nat) (gain : κ → Nat) (φ : α → Nat)
    (hstep : ∀ a k w b, spec a k w b → P b → P a ∧ cost w + φ b ≤ gain k + φ a) (h : Path spec a ks ws b) (hb : P b) :
    P a ∧ (ws.map cost).sum + φ b ≤ (ks.map gain).sum + φ a := by
  induction h with
  | nil => exact ⟨hb, by simp⟩
  | cons hs _ ih =>
    obtain ⟨hc, hrest⟩ := ih hb
    obtain ⟨ha, hfirst⟩ := hstep _ _ _ _ hs hc
    refine ⟨ha, ?_⟩
    rw [List.map_cons, List.map_cons, List.sum_cons, List.sum_cons]
    omega

/-- A run is matched by a path from `a`: every event `ev` by the occasions `js` that lead to `c` with the answers `us`, with
`Sees ev js us c`; and at every moment `Rel` relates the run so far to the occasions so far and the state they lead to. -/
inductive Matched (spec : α → κ → ω → α → Prop) (Sees : Event σ ι ρ → List κ → List ω → α → Prop)
    (Rel : List (Event σ ι ρ) → List κ → α → Prop) (a : α) : List (Event σ ι ρ) → List κ → List ω → α → Prop where
  | nil : Rel [] [] a → Matched spec Sees Rel a [] [] [] a
  | snoc {h : List (Event σ ι ρ)} {ks js : List κ} {ws us : List ω} {b c : α} {ev : Event σ ι ρ} :
      Matched spec Sees Rel a h ks ws b → Path spec b js us c → Sees ev js us c → Rel (h ++ [ev]) (ks ++ js) c →
      Matched spec Sees Rel a (h ++ [ev]) (ks ++ js) (ws ++ us) c

variable {Sees : Event σ ι ρ → List κ → List ω → α → Prop} {Rel : List (Event σ ι ρ) → List κ → α → Prop}
  {h h1 h2 : List (Event σ ι ρ)}

theorem Matched.rel (m : Matched spec Sees Rel a h ks ws b) : Rel h ks b := by
  cases m with
  | nil h0 => exact h0
  | snoc _ _ _ hr => exact hr

/-- The first events of a run are matched by the first occasions. -/
theorem Matched.take (m : Matched spec Sees Rel a (h1 ++ h2) ks ws b) : ∃ ks1 ws1 b1, Matched spec Sees Rel a h1 ks1 ws1 b1 ∧
    ks1 <+: ks ∧ ws1 <+: ws := by
  generalize hh : h1 ++ h2 = h at m
  induction m generalizing h2 with
  | nil h0 =>
    obtain ⟨rfl, _⟩ := List.append_eq_nil_iff.mp hh
    exact ⟨[], [], a, .nil h0, List.prefix_refl _, List.prefix_refl _⟩
  | @snoc h' ks' js' ws' us' b' c' ev m hp hs hr ih =>
    rcases List.eq_nil_or_concat h2 with rfl | ⟨h3, x, rfl⟩
    · rw [List.append_nil] at hh
      rw [hh]
      exact ⟨_, _, _, .snoc m hp hs hr, List.prefix_refl _, List.prefix_refl _⟩
    · rw [List.concat_eq_append, ← List.append_assoc] at hh
      obtain ⟨ks1, ws1, b1, m1, hks, hws⟩ := ih (List.append_inj' hh rfl).1
      exact ⟨ks1, ws1, b1, m1, hks.trans (List.prefix_append _ _), hws.trans (List.prefix_append _ _)⟩

variable {step : σ → ι → σ × ρ} {halts : ρ → Bool} {s t : σ}

/-- Forward simulation: a relation that holds at the start, and that every step from related states keeps by steps of the
specification, matches every run. Only runs all of whose events are `Good` are asked about. -/
theorem Runs.matched (J : List (Event σ ι ρ) → σ → List κ → α → Prop) (Good : Event σ ι ρ → Prop) (h0 : J [] s [] a)
    (hstep : ∀ h t ks b i, (∀ ev ∈ h, halts ev.res = false) → J h t ks b → Good ⟨t, i, (step t i).2, (step t i).1⟩ →
      ∃ js us c, Path spec b js us c ∧ Sees ⟨t, i, (step t i).2, (step t i).1⟩ js us c ∧
        J (h ++ [⟨t, i, (step t i).2, (step t i).1⟩]) (step t i).1 (ks ++ js) c)
    (hrel : ∀ h t ks b, J h t ks b → Rel h ks b) (hr : Runs step halts s h t) (hgood : ∀ ev ∈ h, Good ev) :
    ∃ ks ws b, Matched spec Sees Rel a h ks ws b ∧ J h t ks b := by
  induction hr with
  | nil => exact ⟨[], [], a, .nil (hrel _ _ _ _ h0), h0⟩
  | snoc i hr hlive ih =>
    obtain ⟨ks, ws, b, m, hj⟩ := ih fun ev hev => hgood ev (List.mem_append_left _ hev)
    obtain ⟨js, us, c, hp, hs, hj'⟩ := hstep _ _ _ _ i hlive hj (hgood _ (List.mem_append_right _ (List.mem_singleton_self _)))
    exact ⟨_, _, _, .snoc m hp hs (hrel _ _ _ _ hj'), hj'⟩

end Run
