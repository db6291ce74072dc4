import Mathlib.Data.List.Basic

/-!
# Programs that ask their surroundings

A program works on a state and asks questions. Its surroundings answer, and it goes on with the answer. It can also be dropped
while a question is open: then the state is what the program has made of it so far. A program is frail if a failure, as an
answer, ends it at once. To drop a frail program at a question is to answer that question with a failure
(`Program.Frail.run_dropped`).

Nothing here depends on the program that uses it.
-/

namespace Interaction

variable {σ Q ρ ρ' E φ α β F : Type} {A : Q → Type}

/-- A program on a state `σ`: it is done, or it asks a question, in a state, and goes on with the answer. -/
inductive Program (σ Q : Type) (A : Q → Type) (ρ : Type) where
  | done (s : σ) (r : ρ)
  | ask (s : σ) (q : Q) (k : A q → Program σ Q A ρ)

namespace Program

/-- One program behind another. -/
def bind : Program σ Q A ρ → (σ → ρ → Program σ Q A ρ') → Program σ Q A ρ'
  | done s r, f => f s r
  | ask s q k, f => ask s q fun a => (k a).bind f

/-- One program behind another, if that has not returned an error. -/
def andThen (p : Program σ Q A (Except E α)) (f : σ → α → Program σ Q A (Except E β)) : Program σ Q A (Except E β) :=
  p.bind fun s r => match r with
    | .ok v => f s v
    | .error e => done s (.error e)

/-! ## Surroundings -/

section Surroundings

variable (answer : φ → (q : Q) → φ × A q)

/-- Run a program in surroundings that answer. -/
def run : Program σ Q A ρ → φ → σ × φ × ρ
  | done s r, e => (s, e, r)
  | ask _ q k, e => (k (answer e q).2).run (answer e q).1

/-- How often a program asks. -/
def asks : Program σ Q A ρ → φ → Nat
  | done _ _, _ => 0
  | ask _ q k, e => (k (answer e q).2).asks (answer e q).1 + 1

/-- The state in which a program asks its `n`-th question, the surroundings then, and the question. -/
def asked : Program σ Q A ρ → Nat → φ → Option (σ × φ × Q)
  | done _ _, _, _ => none
  | ask s q _, 0, e => some (s, e, q)
  | ask _ q k, n + 1, e => (k (answer e q).2).asked n (answer e q).1

/-- What a program asks, and how it is answered. -/
def log : Program σ Q A ρ → φ → List (Σ q, A q)
  | done _ _, _ => []
  | ask _ q k, e => ⟨q, (answer e q).2⟩ :: (k (answer e q).2).log (answer e q).1

/-- The surroundings with a script that says which questions fail: one of the failures `F` is the answer, and it leaves other
surroundings. -/
def interrupted (fail : F → (q : Q) → A q) :
    φ × List (Option (F × φ)) → (q : Q) → (φ × List (Option (F × φ))) × A q
  | (e, []), q => (((answer e q).1, []), (answer e q).2)
  | (e, none :: script), q => (((answer e q).1, script), (answer e q).2)
  | (_, some (f, e) :: script), q => ((e, script), fail f q)

end Surroundings

variable {answer : φ → (q : Q) → φ × A q}

theorem run_bind (p : Program σ Q A ρ) (f : σ → ρ → Program σ Q A ρ') (e : φ) :
    (p.bind f).run answer e =
      (f (p.run answer e).1 (p.run answer e).2.2).run answer (p.run answer e).2.1 := by
  induction p generalizing e with
  | done s r => rfl
  | ask s q k ih => exact ih _ _

theorem log_bind (p : Program σ Q A ρ) (f : σ → ρ → Program σ Q A ρ') (e : φ) :
    (p.bind f).log answer e = p.log answer e ++
      (f (p.run answer e).1 (p.run answer e).2.2).log answer (p.run answer e).2.1 := by
  induction p generalizing e with
  | done s r => rfl
  | ask s q k ih => exact congrArg (_ :: ·) (ih _ _)

/-- A relation between surroundings, a log and the surroundings behind it that holds of the empty log and in front of which a
question can be put holds of every run and its log. -/
theorem run_logged (Rel : φ → List (Σ q, A q) → φ → Prop) (hnil : ∀ e, Rel e [] e)
    (hcons : ∀ e q l e', Rel (answer e q).1 l e' → Rel e (⟨q, (answer e q).2⟩ :: l) e') (p : Program σ Q A ρ) (e : φ) :
    Rel e (p.log answer e) (p.run answer e).2.1 := by
  induction p generalizing e with
  | done s r => exact hnil e
  | ask s q k ih => exact hcons e q _ _ (ih _ _)

/-- A question of one program behind another is a question of either. -/
theorem asked_bind {p : Program σ Q A ρ} {f : σ → ρ → Program σ Q A ρ'} {n : Nat} {e : φ} {x : σ × φ × Q}
    (h : (p.bind f).asked answer n e = some x) : p.asked answer n e = some x ∨
      ∃ n', (f (p.run answer e).1 (p.run answer e).2.2).asked answer n' (p.run answer e).2.1 = some x := by
  induction p generalizing n e with
  | done s r => exact .inr ⟨n, h⟩
  | ask s q k ih =>
    cases n with
    | zero => exact .inl h
    | succ n => exact ih _ h

/-! ## What a program asks -/

/-- Every question that the program may ask is one of these. -/
def Asks (P : Q → Prop) : Program σ Q A ρ → Prop
  | done _ _ => True
  | ask _ q k => P q ∧ ∀ a, (k a).Asks P

variable {P : Q → Prop}

theorem Asks.bind {p : Program σ Q A ρ} {f : σ → ρ → Program σ Q A ρ'} (h : p.Asks P) (hf : ∀ s r, (f s r).Asks P) :
    (p.bind f).Asks P := by
  induction p with
  | done s r => exact hf s r
  | ask s q k ih => exact ⟨h.1, fun a => ih a (h.2 a)⟩

theorem Asks.andThen {p : Program σ Q A (Except E α)} {f : σ → α → Program σ Q A (Except E β)} (h : p.Asks P)
    (hf : ∀ s v, (f s v).Asks P) : (p.andThen f).Asks P := by
  refine h.bind fun s r => ?_
  cases r with
  | ok v => exact hf s v
  | error e => trivial

theorem Asks.asked {p : Program σ Q A ρ} (h : p.Asks P) {n : Nat} {e : φ} {x : σ × φ × Q}
    (hx : p.asked answer n e = some x) : P x.2.2 := by
  induction p generalizing n e with
  | done s r => cases hx
  | ask s q k ih =>
    cases n with
    | zero =>
      cases hx
      exact h.1
    | succ n => exact ih _ (h.2 _) hx

/-! ## Frail programs -/

/-- A failure, as an answer, ends the program at once in the state in which it asked, with one of the results `bad`. -/
def Frail (fails : (q : Q) → A q → Prop) (bad : ρ → Prop) : Program σ Q A ρ → Prop
  | done _ _ => True
  | ask s q k => (∀ a, fails q a → ∃ r, bad r ∧ k a = done s r) ∧ ∀ a, (k a).Frail fails bad

variable {fails : (q : Q) → A q → Prop} {bad : ρ → Prop} {bad' : ρ' → Prop}

/-- Programs one behind the other are frail if both are, and the second does nothing about a bad result of the first. -/
theorem Frail.bind {p : Program σ Q A ρ} {f : σ → ρ → Program σ Q A ρ'} (h : p.Frail fails bad)
    (hf : ∀ s r, (f s r).Frail fails bad') (hbad : ∀ s r, bad r → ∃ r', bad' r' ∧ f s r = done s r') :
    (p.bind f).Frail fails bad' := by
  induction p with
  | done s r => exact hf s r
  | ask s q k ih =>
    refine ⟨fun a ha => ?_, fun a => ih a (h.2 a)⟩
    obtain ⟨r, hr, hk⟩ := h.1 a ha
    obtain ⟨r', hr', hf'⟩ := hbad s r hr
    refine ⟨r', hr', ?_⟩
    simp only [hk]
    exact hf'

/-- The errors in `B`, as results. -/
def Errs (B : E → Prop) (r : Except E α) : Prop := ∃ e, B e ∧ r = .error e

theorem Frail.andThen {B : E → Prop} {p : Program σ Q A (Except E α)} {f : σ → α → Program σ Q A (Except E β)}
    (h : p.Frail fails (Errs B)) (hf : ∀ s v, (f s v).Frail fails (Errs B)) : (p.andThen f).Frail fails (Errs B) := by
  refine h.bind (fun s r => ?_) (fun s r hr => ?_)
  · cases r with
    | ok v => exact hf s v
    | error e => trivial
  · obtain ⟨e, he, rfl⟩ := hr
    exact ⟨.error e, ⟨e, he, rfl⟩, rfl⟩

/-- An interrupted run up to the end of the script is the run. -/
theorem run_spared (fail : F → (q : Q) → A q) (p : Program σ Q A ρ) (e : φ) (script : List (Option (F × φ))) :
    p.run (interrupted answer fail) (e, List.replicate (p.asks answer e) none ++ script) =
      ((p.run answer e).1, ((p.run answer e).2.1, script), (p.run answer e).2.2) := by
  induction p generalizing e with
  | done s r => rfl
  | ask s q k ih => exact ih _ _

/-- A frail program that is dropped at a question leaves what it would leave if the question had failed. -/
theorem Frail.run_dropped {p : Program σ Q A ρ} (h : p.Frail fails bad) {fail : F → (q : Q) → A q}
    (hfail : ∀ f q, fails q (fail f q)) {n : Nat} {e : φ} {x : σ × φ × Q} (hx : p.asked answer n e = some x) (f : F) (e' : φ)
    (script : List (Option (F × φ))) :
    ∃ r, bad r ∧ p.run (interrupted answer fail) (e, List.replicate n none ++ some (f, e') :: script) =
      (x.1, (e', script), r) := by
  induction p generalizing n e with
  | done s r => cases hx
  | ask s q k ih =>
    cases n with
    | zero =>
      cases hx
      obtain ⟨r, hr, hk⟩ := h.1 _ (hfail f q)
      refine ⟨r, hr, ?_⟩
      simp only [List.replicate_zero, List.nil_append, run, interrupted, hk]
    | succ n => exact ih _ (h.2 _) hx

end Program
end Interaction
