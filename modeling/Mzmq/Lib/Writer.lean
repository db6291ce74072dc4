import Mzmq.Lib.Checked

/-!
# All-or-nothing writers

A writer writes into an output buffer and moves a state on. It is all or nothing when there are data that it writes to the
front of every buffer which they fit, and nothing else changes the buffer or the state: a call that fails leaves both as they
were, and can be repeated.

Nothing here depends on the program that uses it.
-/

namespace Writer

open Checked

variable {σ ε α : Type}

/-- In the state `s`, the writer `w` writes `data` and leaves `t`, or it fails and changes nothing; it fails with an error of
the kind `tooSmall` only into a buffer that `data` does not fit. -/
structure AllOrNothing (tooSmall : ε → Bool) (w : List α → σ × List α × Res ε Nat) (s t : σ) (data : List α) : Prop where
  failed : ∀ {buf buf' s' e}, w buf = (s', buf', .error (.err e)) → s' = s ∧ buf' = buf
  retry : ∀ {buf buf' s' e}, w buf = (s', buf', .error (.err e)) → tooSmall e = true →
    buf.length < data.length ∧ ∀ buf2, data.length ≤ buf2.length → w buf2 = (t, splice buf2 0 data, .ok data.length)
  ok : ∀ {buf buf' s' n}, w buf = (s', buf', .ok n) →
    n = data.length ∧ s' = t ∧ data.length ≤ buf.length ∧ buf' = splice buf 0 data

variable {tooSmall : ε → Bool} {w : List α → σ × List α × Res ε Nat} {s t : σ} {data : List α}

/-- A writer that fails the same way with every buffer. -/
theorem AllOrNothing.refused {e : ε} (he : tooSmall e = false) (h : ∀ buf, w buf = (s, buf, .error (.err e))) :
    AllOrNothing tooSmall w s t data := by
  constructor
  · intro buf buf' s' e' hw
    rw [h] at hw
    cases hw
    exact ⟨rfl, rfl⟩
  · intro buf buf' s' e' hw hsmall
    rw [h] at hw
    cases hw
    rw [he] at hsmall
    cases hsmall
  · intro buf buf' s' n hw
    rw [h] at hw
    cases hw

/-- A writer that refuses the buffers which are shorter than `k`, and panics with others that the data do not fit. -/
theorem AllOrNothing.of_eq_panic {e : ε} {k : Nat} (hk : k ≤ data.length)
    (h : ∀ buf, w buf = if buf.length < k then (s, buf, .error (.err e))
      else if buf.length < data.length then (s, buf, .error .panic) else (t, splice buf 0 data, .ok data.length)) :
    AllOrNothing tooSmall w s t data := by
  constructor
  · intro buf buf' s' e' hw
    rw [h] at hw
    split at hw
    · cases hw
      exact ⟨rfl, rfl⟩
    · split at hw <;> cases hw
  · intro buf buf' s' e' hw _
    rw [h] at hw
    split at hw
    · rename_i hlt
      refine ⟨Nat.lt_of_lt_of_le hlt hk, ?_⟩
      intro buf2 hfit
      rw [h, if_neg (Nat.not_lt.mpr (hk.trans hfit)), if_neg (Nat.not_lt.mpr hfit)]
    · split at hw <;> cases hw
  · intro buf buf' s' n hw
    rw [h] at hw
    split at hw
    · cases hw
    · split at hw
      · cases hw
      · rename_i hge
        cases hw
        exact ⟨rfl, rfl, Nat.le_of_not_lt hge, rfl⟩

/-- A writer that looks at nothing but the size of the buffer. -/
theorem AllOrNothing.of_eq {e : ε}
    (h : ∀ buf, w buf = if buf.length < data.length then (s, buf, .error (.err e)) else (t, splice buf 0 data, .ok data.length)) :
    AllOrNothing tooSmall w s t data := by
  refine AllOrNothing.of_eq_panic (Nat.le_refl _) (e := e) ?_
  intro buf
  rw [h]
  by_cases hlt : buf.length < data.length
  · rw [if_pos hlt, if_pos hlt]
  · rw [if_neg hlt, if_neg hlt, if_neg hlt]

/-- A writer that panics with every buffer. -/
theorem AllOrNothing.panics (h : ∀ buf, w buf = (s, buf, .error .panic)) : AllOrNothing tooSmall w s t data := by
  constructor
  · intro buf buf' s' e' hw
    rw [h] at hw
    cases hw
  · intro buf buf' s' e' hw
    rw [h] at hw
    cases hw
  · intro buf buf' s' n hw
    rw [h] at hw
    cases hw

/-- A writer that has nothing to write. -/
theorem AllOrNothing.silent (h : ∀ buf, w buf = (s, buf, .ok 0)) : AllOrNothing tooSmall w s s [] := by
  constructor
  · intro buf buf' s' e' hw
    rw [h] at hw
    cases hw
  · intro buf buf' s' e' hw
    rw [h] at hw
    cases hw
  · intro buf buf' s' n hw
    rw [h] at hw
    cases hw
    exact ⟨rfl, rfl, Nat.zero_le _, (splice_nil buf 0).symm⟩

/-- What stands behind the data that were written is what stood there before. -/
theorem AllOrNothing.drop (hw : AllOrNothing tooSmall w s t data) {buf buf' : List α} {s' : σ} {n : Nat}
    (h : w buf = (s', buf', .ok n)) : n ≤ buf.length ∧ buf'.length = buf.length ∧ buf'.drop n = buf.drop n := by
  obtain ⟨rfl, _, hfit, rfl⟩ := hw.ok h
  refine ⟨hfit, splice_length (by omega), ?_⟩
  rw [splice, List.take_zero, List.nil_append, Nat.zero_add, List.drop_left]

end Writer
