import Mzmq.Lib.Checked

/-!
# Transports

What a driver uses of its transport (`embedded_io::Read + Write`), and transports that answer from a script, as the mock
transports of the tests do: `Slices` hands out slices of bytes and read errors, and `Flaky` refuses some writes as well.
-/

namespace Mzmq

/-- Why `write_all` failed: the number of the kind of the error, and how many bytes the transport had accepted before. -/
structure WriteError where
  kind : Nat
  accepted : Nat
  deriving DecidableEq

/-- A transport. The error of a read is the number of its kind; a read returns at most as many bytes as it has room for, and
none at the end of the input. A `write_all` returns `Ok` or an error: the default one of `embedded_io::Write` panics where `write`
returns `Ok(0)` for bytes that are left, and it is assumed that `write` keeps to its contract, which rules that out. -/
class Transport (T : Type) where
  read : T → Nat → T × Except Nat (List UInt8)
  writeAll : T → List UInt8 → T × Except WriteError Unit
  write_le : ∀ {t t' : T} {bs : List UInt8} {e : WriteError}, writeAll t bs = (t', .error e) → e.accepted ≤ bs.length
  read_le : ∀ {t t' : T} {room : Nat} {bs : List UInt8}, read t room = (t', .ok bs) → bs.length ≤ room

/-- A transport that delivers a stream: its reads return the `rest` of the stream piece by piece and fail only finitely often
in between, and every write succeeds. -/
class Delivers (T : Type) extends Transport T where
  rest : T → List UInt8
  failures : T → Nat
  read_rest : ∀ {t t' : T} {room : Nat} {bs : List UInt8}, read t room = (t', .ok bs) →
    rest t = bs ++ rest t' ∧ failures t' ≤ failures t
  read_end : ∀ {t t' : T} {room : Nat}, 0 < room → read t room = (t', .ok []) → rest t = []
  read_error : ∀ {t t' : T} {room kind : Nat}, read t room = (t', .error kind) →
    rest t' = rest t ∧ failures t' < failures t
  write_ok : ∀ (t : T) (bs : List UInt8), (writeAll t bs).2 = .ok ()
  write_rest : ∀ (t : T) (bs : List UInt8), rest (writeAll t bs).1 = rest t ∧ failures (writeAll t bs).1 ≤ failures t

/-- What a scripted transport does at a read: hand out a slice, which is not empty, or fail. -/
inductive ReadStep where
  | data (b : UInt8) (bs : List UInt8)
  | fail (kind : Nat)

/-- A transport that reads from a script and takes every write. -/
structure Slices where
  reads : List ReadStep

namespace Slices

/-- The bytes of a slice that are not handed out yet stand in front of the script. -/
def putBack (left : List UInt8) (reads : List ReadStep) : Slices :=
  match left with
  | [] => ⟨reads⟩
  | b :: bs => ⟨.data b bs :: reads⟩

/-- Hand out the next slice, as far as there is room for it. -/
def read (t : Slices) (room : Nat) : Slices × Except Nat (List UInt8) :=
  match t.reads with
  | [] => (t, .ok [])
  | .fail kind :: reads => (⟨reads⟩, .error kind)
  | .data b bs :: reads =>
    match room with
    | 0 => (t, .ok [])
    | room + 1 => (putBack (bs.drop room) reads, .ok (b :: bs.take room))

/-- The bytes that are still to come. -/
def rest (t : Slices) : List UInt8 :=
  t.reads.flatMap fun
    | .data b bs => b :: bs
    | .fail _ => []

/-- The number of reads that are still to fail. -/
def failures (t : Slices) : Nat :=
  t.reads.countP fun
    | .data _ _ => false
    | .fail _ => true

theorem putBack_rest (left : List UInt8) (reads : List ReadStep) :
    (putBack left reads).rest = left ++ (⟨reads⟩ : Slices).rest := by
  cases left with
  | nil => rfl
  | cons b bs => rfl

theorem putBack_failures (left : List UInt8) (reads : List ReadStep) :
    (putBack left reads).failures = (⟨reads⟩ : Slices).failures := by
  cases left with
  | nil => rfl
  | cons b bs => simp [putBack, failures]

/-- A read hands out what comes next, it finds nothing or no room, or it fails. -/
theorem read_spec (t : Slices) (room : Nat) :
    (∃ t' bs, t.read room = (t', .ok bs) ∧ bs ≠ [] ∧ bs.length ≤ room ∧ t.rest = bs ++ t'.rest ∧
      t'.failures = t.failures) ∨
    (t.read room = (t, .ok []) ∧ (t.rest = [] ∨ room = 0)) ∨
    (∃ t' kind, t.read room = (t', .error kind) ∧ t'.rest = t.rest ∧ t'.failures < t.failures) := by
  obtain ⟨reads⟩ := t
  cases reads with
  | nil => exact .inr (.inl ⟨rfl, .inl rfl⟩)
  | cons r reads =>
    cases r with
    | fail kind => exact .inr (.inr ⟨⟨reads⟩, kind, rfl, rfl, by simp [failures]⟩)
    | data b bs =>
      cases room with
      | zero => exact .inr (.inl ⟨rfl, .inr rfl⟩)
      | succ room =>
        refine .inl ⟨putBack (bs.drop room) reads, b :: bs.take room, rfl, by simp, ?_, ?_, ?_⟩
        · simp only [List.length_cons, List.length_take]
          omega
        · rw [putBack_rest, List.cons_append, ← List.append_assoc, List.take_append_drop]
          rfl
        · rw [putBack_failures]
          simp [failures]

instance : Delivers Slices where
  read := read
  writeAll t _ := (t, .ok ())
  write_le h := by cases h
  rest := rest
  failures := failures
  read_le {t t' room bs} h := by
    rcases t.read_spec room with ⟨t1, bs1, h1, _, hle, _⟩ | ⟨h1, _⟩ | ⟨t1, kind, h1, _⟩
    · rw [h1] at h
      cases h
      exact hle
    · rw [h1] at h
      cases h
      exact Nat.zero_le _
    · rw [h1] at h
      cases h
  read_rest {t t' room bs} h := by
    rcases t.read_spec room with ⟨t1, bs1, h1, _, _, hr, hf⟩ | ⟨h1, _⟩ | ⟨t1, kind, h1, _⟩
    · rw [h1] at h
      cases h
      exact ⟨hr, Nat.le_of_eq hf⟩
    · rw [h1] at h
      cases h
      exact ⟨rfl, Nat.le_refl _⟩
    · rw [h1] at h
      cases h
  read_end {t t' room} hroom h := by
    rcases t.read_spec room with ⟨t1, bs1, h1, hne, _⟩ | ⟨_, hr⟩ | ⟨t1, kind, h1, _⟩
    · rw [h1] at h
      cases h
      exact absurd rfl hne
    · rcases hr with hr | hr
      · exact hr
      · omega
    · rw [h1] at h
      cases h
  read_error {t t' room kind} h := by
    rcases t.read_spec room with ⟨t1, bs1, h1, _⟩ | ⟨h1, _⟩ | ⟨t1, kind1, h1, hr, hf⟩
    · rw [h1] at h
      cases h
    · rw [h1] at h
      cases h
    · rw [h1] at h
      cases h
      exact ⟨hr, hf⟩
  write_ok _ _ := rfl
  write_rest _ _ := ⟨rfl, Nat.le_refl _⟩

end Slices

/-- A transport that reads from a script and answers its writes from another; behind the script it takes every write. -/
structure Flaky where
  slices : Slices
  answers : List (Option WriteError)

namespace Flaky

/-- The next answer to a write: it is taken, or it fails behind some of the bytes. -/
def writeAll (t : Flaky) (bs : List UInt8) : Flaky × Except WriteError Unit :=
  match t.answers with
  | [] => (t, .ok ())
  | none :: answers => ({ t with answers := answers }, .ok ())
  | some e :: answers => ({ t with answers := answers }, .error { e with accepted := min e.accepted bs.length })

instance : Transport Flaky where
  read t room := ({ t with slices := (t.slices.read room).1 }, (t.slices.read room).2)
  writeAll := writeAll
  write_le {t t' bs e} h := by
    unfold writeAll at h
    split at h <;> cases h
    exact Nat.min_le_right _ _
  read_le {t t' room bs} h := by
    simp only [Prod.mk.injEq] at h
    have hr : Transport.read t.slices room = ((t.slices.read room).1, .ok bs) := Prod.ext rfl h.2
    exact Transport.read_le hr

end Flaky
end Mzmq
