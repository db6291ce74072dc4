import Mathlib.Data.Vector.Basic
import Mathlib.Data.List.Induction

/-!
# Checked operations on fixed-size data

A call of the modelled language ends with a value, with an error it returns, or with a panic: an index or a slice out of
bounds, or an addition that overflows while overflow checks are on. `Res ε α` is the result of such a call. A loop that is
modelled with fuel ends with `hang` when the fuel runs out, so that a loop which does not end is told from one that fails.

Nothing here depends on the program that uses it.
-/

namespace Checked

/-- How a call ends when it does not return a value. -/
inductive Fault (ε : Type) where
  | err (e : ε)
  | panic
  | hang
  deriving DecidableEq, Repr

/-- The result of a call that may return an error or panic. -/
abbrev Res (ε α : Type) := Except (Fault ε) α

/-- A fault that is not an error: the call did not return. -/
def Fault.aborts {ε : Type} : Fault ε → Bool
  | .err _ => false
  | .panic => true
  | .hang => true

/-- Wrap the error of an inner call, as `map_err` does. -/
def Fault.mapErr {ε ε' : Type} (f : ε → ε') : Fault ε → Fault ε'
  | .err e => .err (f e)
  | .panic => .panic
  | .hang => .hang

@[simp] theorem Fault.aborts_mapErr {ε ε' : Type} (f : ε → ε') (flt : Fault ε) : (flt.mapErr f).aborts = flt.aborts := by
  cases flt <;> rfl

variable {ε α : Type}

/-! ## Slices -/

/-- `&xs[a..b]`. -/
def slice (xs : List α) (a b : Nat) : Res ε (List α) :=
  if a ≤ b ∧ b ≤ xs.length then .ok ((xs.drop a).take (b - a)) else .error .panic

/-- `xs[i]`. -/
def index (xs : List α) (i : Nat) : Res ε α :=
  match xs[i]? with
  | some a => .ok a
  | none => .error .panic

/-- `buf[pos..pos + src.len()].copy_from_slice(src)` on an array. -/
def copyInto {n : Nat} (buf : List.Vector α n) (pos : Nat) (src : List α) : Res ε (List.Vector α n) :=
  if h : pos + src.length ≤ n then
    .ok ⟨buf.toList.take pos ++ src ++ buf.toList.drop (pos + src.length), by
      simp only [List.length_append, List.length_take, List.length_drop, List.Vector.toList_length]
      omega⟩
  else .error .panic

/-- The list that `copyInto` leaves when the source fits. -/
def splice (buf : List α) (pos : Nat) (src : List α) : List α :=
  buf.take pos ++ src ++ buf.drop (pos + src.length)

theorem slice_ok {xs : List α} {a b : Nat} (h : a ≤ b) (h' : b ≤ xs.length) :
    slice (ε := ε) xs a b = .ok ((xs.drop a).take (b - a)) := by
  simp [slice, h, h']

theorem index_ok {xs : List α} {i : Nat} (h : i < xs.length) : index (ε := ε) xs i = .ok xs[i] := by
  simp [index, List.getElem?_eq_getElem h]

theorem copyInto_ok {n : Nat} (buf : List.Vector α n) (pos : Nat) (src : List α) (h : pos + src.length ≤ n) :
    ∃ buf', copyInto (ε := ε) buf pos src = .ok buf' ∧ buf'.toList = splice buf.toList pos src := by
  refine ⟨_, dif_pos h, rfl⟩

/-- The list that a copy which fits leaves. -/
theorem toList_of_copyInto {n : Nat} {buf buf' : List.Vector α n} {pos : Nat} {src : List α}
    (h : copyInto (ε := ε) buf pos src = .ok buf') : pos + src.length ≤ n ∧ buf'.toList = splice buf.toList pos src := by
  unfold copyInto at h
  split at h
  · rename_i hle
    cases h
    exact ⟨hle, rfl⟩
  · cases h

theorem splice_nil (buf : List α) (pos : Nat) : splice buf pos [] = buf := by
  simp [splice]

theorem splice_length {buf src : List α} {pos : Nat} (h : pos + src.length ≤ buf.length) :
    (splice buf pos src).length = buf.length := by
  simp only [splice, List.length_append, List.length_take, List.length_drop]
  omega

/-- What stands before the end of a copy: the old data up to its start, then the source. -/
theorem splice_take (buf src : List α) {pos : Nat} (h : pos ≤ buf.length) :
    (splice buf pos src).take (pos + src.length) = buf.take pos ++ src := by
  have hl : (buf.take pos ++ src).length = pos + src.length := by simp [Nat.min_eq_left h]
  rw [splice, List.take_append_of_le_length (by omega), List.take_of_length_le (by omega)]

/-- A copy to the front stands there. -/
theorem take_splice_zero (buf src : List α) : (splice buf 0 src).take src.length = src := by
  have h := splice_take buf src (Nat.zero_le _)
  rwa [Nat.zero_add, List.take_zero, List.nil_append] at h

/-- A copy leaves what stands before its start. -/
theorem splice_take_le {buf src : List α} {pos k : Nat} (h : pos ≤ buf.length) (hk : k ≤ pos) :
    (splice buf pos src).take k = buf.take k := by
  have hl : (buf.take pos).length = pos := by simp [Nat.min_eq_left h]
  rw [splice, List.append_assoc, List.take_append_of_le_length (by omega), List.take_take, Nat.min_eq_left hk]

/-- Two copies one behind the other are one copy. -/
theorem splice_splice {buf xs ys : List α} {pos : Nat} (h : pos + xs.length ≤ buf.length) :
    splice (splice buf pos xs) (pos + xs.length) ys = splice buf pos (xs ++ ys) := by
  have hl : (buf.take pos ++ xs).length = pos + xs.length := by simp [Nat.min_eq_left (by omega : pos ≤ buf.length)]
  have ht : (splice buf pos xs).take (pos + xs.length) = buf.take pos ++ xs := splice_take buf xs (by omega)
  have hd : (splice buf pos xs).drop (pos + xs.length + ys.length) = buf.drop (pos + (xs ++ ys).length) := by
    rw [splice, List.drop_append, List.drop_of_length_le (by omega), List.nil_append, List.drop_drop, hl,
      List.length_append]
    congr 1
    omega
  rw [splice, ht, hd]
  simp only [splice, List.append_assoc]

/-- Two copies one behind the other are one copy, on arrays. -/
theorem copyInto_copyInto {n : Nat} (buf : List.Vector α n) (pos : Nat) (xs ys : List α)
    (h : pos + (xs ++ ys).length ≤ n) :
    ∃ buf', copyInto (ε := ε) buf pos xs = .ok buf' ∧
      copyInto (ε := ε) buf' (pos + xs.length) ys = copyInto (ε := ε) buf pos (xs ++ ys) := by
  rw [List.length_append] at h
  obtain ⟨b1, h1, l1⟩ := copyInto_ok (ε := ε) buf pos xs (by omega)
  obtain ⟨b2, h2, l2⟩ := copyInto_ok (ε := ε) b1 (pos + xs.length) ys (by omega)
  obtain ⟨b3, h3, l3⟩ := copyInto_ok (ε := ε) buf pos (xs ++ ys)
    (by rw [List.length_append]; omega)
  refine ⟨b1, h1, ?_⟩
  have hlen : buf.toList.length = n := buf.toList_length
  rw [h2, h3]
  congr 1
  apply List.Vector.eq
  rw [l2, l1, l3, splice_splice (by omega)]

/-! ## Machine integers -/

/-- The two widths of a pointer-sized integer. -/
inductive Width where
  | w32
  | w64
  deriving DecidableEq, Repr

/-- The number of bits. -/
def Width.bits : Width → Nat
  | .w32 => 32
  | .w64 => 64

/-- What a program is built for: the width of a pointer-sized integer, and whether an addition that overflows panics
(a debug build) or wraps around (a release build). -/
structure Target where
  width : Width
  overflowChecks : Bool
  deriving DecidableEq, Repr

/-- The number of values of a pointer-sized integer. -/
def Target.size (t : Target) : Nat := 2 ^ t.width.bits

/-- `a + b` on pointer-sized integers. -/
def Target.add (t : Target) (a b : Nat) : Res ε Nat :=
  if a + b < t.size then .ok (a + b)
  else if t.overflowChecks then .error .panic
  else .ok ((a + b) % t.size)

/-- `n as usize` for an integer that may be wider. -/
def Target.cast (t : Target) (n : Nat) : Nat := n % t.size

theorem Target.add_ok {t : Target} {a b : Nat} (h : a + b < t.size) : t.add (ε := ε) a b = .ok (a + b) := by
  simp [Target.add, h]

theorem Target.size_pos (t : Target) : 0 < t.size := Nat.pow_pos (by decide)

/-- Both widths hold every 32-bit value. -/
theorem Target.size_ge (t : Target) : 2 ^ 32 ≤ t.size := by
  unfold Target.size
  cases t.width <;> decide

/-- Both widths are at most 64 bits. -/
theorem Target.size_le (t : Target) : t.size ≤ 2 ^ 64 := by
  unfold Target.size
  cases t.width <;> decide

theorem Target.size_w32 {t : Target} (h : t.width = .w32) : t.size = 2 ^ 32 := by
  rw [Target.size, h]
  rfl

theorem Target.size_w64 {t : Target} (h : t.width ≠ .w32) : t.size = 2 ^ 64 := by
  have hw : t.width = .w64 := by
    cases hw : t.width with
    | w32 => exact absurd hw h
    | w64 => rfl
  rw [Target.size, hw]
  rfl

theorem Target.cast_of_lt {t : Target} {n : Nat} (h : n < t.size) : t.cast n = n := Nat.mod_eq_of_lt h

/-- The number that bytes stand for, the first the most significant (`from_be_bytes`). -/
def beNat (bs : List UInt8) : Nat := bs.foldl (fun acc b => acc * 256 + b.toNat) 0

theorem beNat_snoc (bs : List UInt8) (b : UInt8) : beNat (bs ++ [b]) = beNat bs * 256 + b.toNat := by
  simp [beNat]

/-- The `k` low bytes of a number, the most significant first (`to_be_bytes`). -/
def beBytes : Nat → Nat → List UInt8
  | 0, _ => []
  | k + 1, n => beBytes k (n / 256) ++ [UInt8.ofNat n]

theorem beBytes_length (k n : Nat) : (beBytes k n).length = k := by
  induction k generalizing n with
  | zero => rfl
  | succ k ih => rw [beBytes, List.length_append, ih, List.length_singleton]

/-- A number that fits is read back from its bytes. -/
theorem beNat_beBytes {k n : Nat} (h : n < 256 ^ k) : beNat (beBytes k n) = n := by
  induction k generalizing n with
  | zero =>
    rw [Nat.pow_zero, Nat.lt_one_iff] at h
    rw [h]
    rfl
  | succ k ih =>
    have hdiv : n / 256 < 256 ^ k := by
      rw [Nat.pow_succ] at h
      exact (Nat.div_lt_iff_lt_mul (by decide)).mpr h
    rw [beBytes, beNat_snoc, ih hdiv, UInt8.toNat_ofNat']
    omega

/-- Bytes are read back from the number they stand for. -/
theorem beBytes_beNat (bs : List UInt8) : beBytes bs.length (beNat bs) = bs := by
  induction bs using List.reverseRecOn with
  | nil => rfl
  | append_singleton bs b ih =>
    have hb := b.toNat_lt
    have hdiv : (beNat bs * 256 + b.toNat) / 256 = beNat bs := by omega
    have hbyte : UInt8.ofNat (beNat bs * 256 + b.toNat) = b := by
      apply UInt8.toNat_inj.mp
      rw [UInt8.toNat_ofNat']
      omega
    rw [List.length_append, List.length_singleton, beNat_snoc, beBytes, hdiv, ih, hbyte]

/-- `k` bytes stand for a number below `256 ^ k`. -/
theorem beNat_lt (bs : List UInt8) : beNat bs < 256 ^ bs.length := by
  induction bs using List.reverseRecOn with
  | nil => simp [beNat]
  | append_singleton bs b ih =>
    have hb := b.toNat_lt
    rw [beNat_snoc, List.length_append, List.length_singleton, Nat.pow_succ]
    omega

end Checked
