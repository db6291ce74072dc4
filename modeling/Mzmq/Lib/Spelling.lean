import Mathlib.Algebra.GroupWithZero.Nat
import Mathlib.Data.List.Basic

/-!
# Spelling

Letters with forms: `W k form` says that `form` is a form of the letter `k`. A list spells some letters when it is a form of
each of them, one behind the other. If no form is the beginning of another one, a list spells at most one word.

Nothing here depends on the program that uses it.
-/

namespace Spelling

variable {κ β : Type}

/-- `s` spells the letters `ks`. -/
inductive Spelled (W : κ → List β → Prop) : List κ → List β → Prop where
  | nil : Spelled W [] []
  | cons {k : κ} {form s : List β} {ks : List κ} : W k form → Spelled W ks s → Spelled W (k :: ks) (form ++ s)

variable {W : κ → List β → Prop} {ks js : List κ} {s t : List β}

theorem Spelled.single {k : κ} {form : List β} (h : W k form) : Spelled W [k] form := by
  have := Spelled.cons h .nil
  rwa [List.append_nil] at this

theorem Spelled.append (h : Spelled W ks s) (h' : Spelled W js t) : Spelled W (ks ++ js) (s ++ t) := by
  induction h with
  | nil => exact h'
  | cons hw _ ih =>
    rw [List.append_assoc]
    exact .cons hw ih

/-- Letters no longer than their forms add up to no more than the list. -/
theorem Spelled.sum_le (cost : κ → Nat) (hcost : ∀ k form, W k form → cost k ≤ form.length) (h : Spelled W ks s) :
    (ks.map cost).sum ≤ s.length := by
  induction h with
  | nil => exact Nat.le_refl 0
  | cons hw _ ih =>
    rw [List.map_cons, List.sum_cons, List.length_append]
    exact Nat.add_le_add (hcost _ _ hw) ih

/-- Forms that cannot be mixed up: of two that a list begins with, the letters and the forms are the same. -/
def PrefixFree (W : κ → List β → Prop) : Prop :=
  ∀ k k' form form' s, W k form → W k' form' → form <+: s → form' <+: s → k = k' ∧ form = form'

/-- Two words that one list begins with, with nothing left over that spells one more letter, are the same. -/
theorem Spelled.unique (hfree : PrefixFree W) {u u' : List β} (h : Spelled W ks s) (h' : Spelled W js t)
    (heq : s ++ u = t ++ u') (hu : ∀ k form, form <+: u → ¬W k form) (hu' : ∀ k form, form <+: u' → ¬W k form) :
    ks = js ∧ s = t := by
  induction h generalizing js t with
  | nil =>
    cases h' with
    | nil => exact ⟨rfl, rfl⟩
    | @cons k form s ks hw _ =>
      refine absurd hw (hu k form ⟨s ++ u', ?_⟩)
      rw [← List.append_assoc, ← heq, List.nil_append]
  | @cons k form s ks hw hs ih =>
    cases h' with
    | nil =>
      refine absurd hw (hu' k form ⟨s ++ u, ?_⟩)
      rw [← List.append_assoc, heq, List.nil_append]
    | @cons k' form' s' ks' hw' hs' =>
      have hpre : form <+: form ++ s ++ u := by
        rw [List.append_assoc]
        exact List.prefix_append _ _
      have hpre' : form' <+: form ++ s ++ u := by
        rw [heq, List.append_assoc]
        exact List.prefix_append _ _
      obtain ⟨rfl, rfl⟩ := hfree k k' form form' _ hw hw' hpre hpre'
      rw [List.append_assoc, List.append_assoc, List.append_cancel_left_eq] at heq
      obtain ⟨rfl, rfl⟩ := ih hs' heq
      exact ⟨rfl, rfl⟩

end Spelling
