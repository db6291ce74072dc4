import Mathlib.Data.List.Perm.Basic
import Mathlib.Data.Multiset.MapFold

/-!
# Vectors of fixed capacity

`FixedVec V` says what a program may rely on when it uses a vector type of fixed capacity from a library: `push` appends an
element and fails without change exactly when the vector is full, and `swapRemove` takes out one element and may reorder the
rest. Programs are written over any such type, and their properties hold for all of them. `BVec` is one: its `swapRemove`
puts the last element into the place of the one it takes out.

The order of the elements is not what a caller relies on: the lemmas are about the multiset of the elements (`bag`).
Nothing here depends on the program that uses it.
-/

/-- A type of vectors of at most `n` elements. -/
class FixedVec (V : Type → Nat → Type) where
  /-- A new vector. -/
  empty {α : Type} {n : Nat} : V α n
  /-- A new vector that is extended from a slice which fits. -/
  ofSlice {α : Type} {n : Nat} (s : List α) (h : s.length ≤ n) : V α n
  /-- The elements. -/
  asSlice {α : Type} {n : Nat} : V α n → List α
  /-- Append one element: did it fit? -/
  push {α : Type} {n : Nat} : V α n → α → V α n × Bool
  /-- Take out the element at a position. -/
  swapRemove {α : Type} {n : Nat} : V α n → Nat → V α n
  asSlice_empty {α : Type} {n : Nat} : asSlice (empty : V α n) = []
  asSlice_ofSlice {α : Type} {n : Nat} (s : List α) (h : s.length ≤ n) : asSlice (ofSlice s h) = s
  length_le {α : Type} {n : Nat} (v : V α n) : (asSlice v).length ≤ n
  push_room {α : Type} {n : Nat} (v : V α n) (a : α) :
    (asSlice v).length < n → (push v a).2 = true ∧ asSlice (push v a).1 = asSlice v ++ [a]
  push_full {α : Type} {n : Nat} (v : V α n) (a : α) : (asSlice v).length = n → push v a = (v, false)
  swapRemove_perm {α : Type} {n : Nat} (v : V α n) (i : Nat) :
    i < (asSlice v).length → (asSlice (swapRemove v i)).Perm ((asSlice v).eraseIdx i)

namespace FixedVec

variable {V : Type → Nat → Type} [FixedVec V] {α β : Type} {n : Nat}

/-- A slice that is not longer than the capacity fits. -/
theorem fits_of_not_gt {s : List α} (h : ¬s.length > n) : s.length ≤ n := Nat.le_of_not_lt h

/-- The elements, without their order. -/
def bag (v : V α n) : Multiset α := ↑(asSlice v)

/-- What `push` leaves: one element more, or the same vector, which is full. -/
theorem push_cases (v : V α n) (a : α) :
    ((bag v).card < n ∧ (push v a).2 = true ∧ bag (push v a).1 = a ::ₘ bag v) ∨
      push v a = (v, false) ∧ (bag v).card = n := by
  rcases Nat.lt_or_eq_of_le (length_le v) with hlt | hfull
  · obtain ⟨h1, h2⟩ := push_room v a hlt
    refine .inl ⟨hlt, h1, ?_⟩
    rw [bag, h2]
    exact Multiset.coe_eq_coe.2 (List.perm_append_singleton a (asSlice v))
  · exact .inr ⟨push_full v a hfull, hfull⟩

/-- Taking out an element erases one copy of what it stands for, wherever it is. -/
theorem bag_swapRemove [DecidableEq β] (f : α → β) {v : V α n} {i : Nat} (h : i < (asSlice v).length) :
    (bag (swapRemove v i)).map f = ((bag v).map f).erase (f (asSlice v)[i]) := by
  have hperm : ((asSlice v)[i] ::ₘ bag (swapRemove v i)) = bag v :=
    Multiset.coe_eq_coe.2 (((swapRemove_perm v i h).cons _).trans (List.getElem_cons_eraseIdx_perm h))
  rw [← hperm, Multiset.map_cons, Multiset.erase_cons_head]

end FixedVec

/-! ## An implementation -/

/-- A vector of at most `n` elements, as a list. -/
structure BVec (α : Type) (n : Nat) where
  items : List α
  bounded : items.length ≤ n

namespace BVec

variable {α : Type} {n : Nat}

/-- Append one element, if there is room. -/
def push (v : BVec α n) (a : α) : BVec α n × Bool :=
  if h : v.items.length < n then (⟨v.items ++ [a], by rw [List.length_append]; exact h⟩, true) else (v, false)

/-- Take element `i` out of a list, moving the last element into its place. -/
def swapRemoveList (l : List α) (i : Nat) : List α :=
  match l.getLast? with
  | none => l
  | some last => (l.set i last).dropLast

theorem swapRemoveList_length (l : List α) (i : Nat) : (swapRemoveList l i).length ≤ l.length := by
  unfold swapRemoveList
  split
  · exact Nat.le_refl _
  · simp

/-- Take element `i` out, moving the last element into its place. -/
def swapRemove (v : BVec α n) (i : Nat) : BVec α n :=
  ⟨swapRemoveList v.items i, (swapRemoveList_length v.items i).trans v.bounded⟩

/-- Putting the last element in place of element `i` and dropping the end is, but for the order, taking element `i` out. -/
theorem swapRemoveList_perm (l : List α) (i : Nat) (h : i < l.length) :
    (swapRemoveList l i).Perm (l.eraseIdx i) := by
  rcases List.eq_nil_or_concat l with rfl | ⟨xs, b, rfl⟩
  · simp at h
  · rw [List.concat_eq_append] at h ⊢
    have e : swapRemoveList (xs ++ [b]) i = ((xs ++ [b]).set i b).dropLast := by
      simp [swapRemoveList]
    rw [e]
    by_cases hi : i < xs.length
    · rw [List.set_append_left _ _ hi, List.dropLast_concat, List.eraseIdx_append_of_lt_length hi,
        List.set_eq_take_append_cons_drop, if_pos hi, List.eraseIdx_eq_take_drop_succ, List.append_assoc]
      exact (List.perm_append_singleton b _).symm.append_left _
    · have hi' : i = xs.length := by
        simp at h
        omega
      subst hi'
      rw [List.set_append_right _ _ (Nat.le_refl _), Nat.sub_self, List.eraseIdx_append_of_length_le (Nat.le_refl _),
        Nat.sub_self]
      simp

end BVec

instance : FixedVec BVec where
  empty := ⟨[], Nat.zero_le _⟩
  ofSlice := fun s h => ⟨s, h⟩
  asSlice := BVec.items
  push := BVec.push
  swapRemove := BVec.swapRemove
  asSlice_empty := rfl
  asSlice_ofSlice := fun _ _ => rfl
  length_le := BVec.bounded
  push_room := by
    intro α n v a h
    rw [BVec.push, dif_pos h]
    exact ⟨rfl, rfl⟩
  push_full := by
    intro α n v a h
    rw [BVec.push, dif_neg (Nat.not_lt.mpr (Nat.le_of_eq h.symm))]
  swapRemove_perm := fun v i h => BVec.swapRemoveList_perm v.items i h
