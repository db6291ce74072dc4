import Mzmq.Conn

/-!
# Feeding the greeting

`feedGreeting` fills the greeting buffer and checks it twice: the first eleven bytes as soon as they are there, and all of it
when it is complete. `feedGreeting_eq` separates the copy from the checks (`greetingTail`), and `feedGreeting_cons` takes the
first byte of the input apart from the rest.
-/

namespace Mzmq
namespace Conn

open Checked

variable {τ : Type} {cap : Nat}

/-- What `feedGreeting` does with a complete greeting. -/
def greetingFull (c : Conn τ cap) (n : Nat) : Conn τ cap × Res ConnError Nat :=
  if c.greetingPos = greetingLen then
    match parsePeerGreeting c.mechanism c.greetingBuf with
    | .error e => (c, .error (.err (.greetingError e)))
    | .ok g =>
      if c.ourGreetingSent = true then
        ({ c with peerVersionMinor := g.versionMinor, peerGreetingReceived := true, state := afterGreeting c.mechanism },
          .ok n)
      else ({ c with peerVersionMinor := g.versionMinor, peerGreetingReceived := true }, .ok n)
  else (c, .ok n)

/-- The check of the first eleven bytes, when they have just come in. -/
def greetingCheck (prevPos pos : Nat) (buf : List.Vector UInt8 64) : Except GreetingError Unit :=
  if prevPos < greetingPartialLen ∧ pos ≥ greetingPartialLen then
    parsePartialGreeting (buf.toList.take greetingPartialLen)
  else .ok ()

/-- What `feedGreeting` does once it has copied `n` bytes behind the first `prevPos`. -/
def greetingTail (prevPos n : Nat) (c : Conn τ cap) : Conn τ cap × Res ConnError Nat :=
  match greetingCheck prevPos c.greetingPos c.greetingBuf with
  | .error e => (c, .error (.err (.greetingError e)))
  | .ok () => greetingFull c n

/-- How many bytes of an input go into the greeting buffer. -/
def greetingTaken (c : Conn τ cap) (input : List UInt8) : Nat := min input.length (greetingLen - c.greetingPos)

/-- The connection with a greeting buffer and how far it is filled. -/
def withGreeting (c : Conn τ cap) (buf : List.Vector UInt8 64) (pos : Nat) : Conn τ cap :=
  { c with greetingBuf := buf, greetingPos := pos }

/-- The connection with a complete greeting that is accepted: the state moves on when our own greeting is sent. -/
def greeted (c : Conn τ cap) (buf : List.Vector UInt8 64) (g : PeerGreeting) : Conn τ cap :=
  { c with
    greetingBuf := buf, greetingPos := greetingLen, peerVersionMinor := g.versionMinor, peerGreetingReceived := true,
    state := if c.ourGreetingSent = true then afterGreeting c.mechanism else c.state }

theorem withGreeting_greetingPos (c : Conn τ cap) (buf : List.Vector UInt8 64) (pos : Nat) :
    (c.withGreeting buf pos).greetingPos = pos := rfl

theorem withGreeting_greetingBuf (c : Conn τ cap) (buf : List.Vector UInt8 64) (pos : Nat) :
    (c.withGreeting buf pos).greetingBuf = buf := rfl

/-- The checks follow the copy. -/
theorem feedGreeting_copied {c : Conn τ cap} {input : List UInt8} {buf : List.Vector UInt8 64}
    (h : copyInto (ε := ConnError) c.greetingBuf c.greetingPos (input.take (c.greetingTaken input)) = .ok buf) :
    feedGreeting c input = greetingTail c.greetingPos (c.greetingTaken input)
      (c.withGreeting buf (c.greetingPos + c.greetingTaken input)) := by
  unfold greetingTaken at h
  simp only [feedGreeting, h, greetingTail, greetingCheck, greetingFull, greetingTaken, withGreeting]
  rfl

/-- The copy fits, and the checks follow. -/
theorem feedGreeting_eq {c : Conn τ cap} (h : c.greetingPos ≤ greetingLen) (input : List UInt8) :
    ∃ buf, copyInto (ε := ConnError) c.greetingBuf c.greetingPos (input.take (c.greetingTaken input)) = .ok buf ∧
      feedGreeting c input = greetingTail c.greetingPos (c.greetingTaken input)
        (c.withGreeting buf (c.greetingPos + c.greetingTaken input)) := by
  have hfit : c.greetingPos + (input.take (c.greetingTaken input)).length ≤ 64 := by
    unfold greetingTaken greetingLen at *
    rw [List.length_take]
    omega
  obtain ⟨buf, hc, _⟩ := copyInto_ok (ε := ConnError) c.greetingBuf c.greetingPos _ hfit
  exact ⟨buf, hc, feedGreeting_copied hc⟩

/-- A greeting that is not complete is only buffered. -/
theorem greetingFull_of_lt {c : Conn τ cap} (h : c.greetingPos < greetingLen) (n : Nat) : greetingFull c n = (c, .ok n) := by
  rw [greetingFull, if_neg (Nat.ne_of_lt h)]

/-- The checks leave the state, the version and the table of a connection whose greeting they reject. -/
theorem greetingTail_error {c c' : Conn τ cap} {prevPos n : Nat} {f : Fault ConnError}
    (h : greetingTail prevPos n c = (c', .error f)) : c' = c ∧ ∃ e, f = .err (.greetingError e) := by
  have hfull : ∀ {c' f}, greetingFull c n = (c', .error f) → c' = c ∧ ∃ e, f = .err (.greetingError e) := by
    intro c' f h
    unfold greetingFull at h
    split at h
    · split at h
      · cases h
        exact ⟨rfl, _, rfl⟩
      · split at h <;> cases h
    · cases h
  unfold greetingTail at h
  split at h
  · cases h
    exact ⟨rfl, _, rfl⟩
  · exact hfull h

/-- An accepted greeting is all there is to read of it. -/
theorem greetingTail_ok {c c' : Conn τ cap} {prevPos n m : Nat} (h : greetingTail prevPos n c = (c', .ok m)) :
    m = n ∧ c'.greetingPos = c.greetingPos := by
  unfold greetingTail at h
  split at h
  · cases h
  · unfold greetingFull at h
    split at h
    · split at h
      · cases h
      · split at h <;> cases h <;> exact ⟨rfl, rfl⟩
    · cases h
      exact ⟨rfl, rfl⟩

/-- The result of the checks counts the bytes that were copied. -/
theorem greetingTail_succ (prevPos n : Nat) (c : Conn τ cap) :
    greetingTail prevPos (n + 1) c = ((greetingTail prevPos n c).1, (greetingTail prevPos n c).2.map (· + 1)) := by
  have hfull : greetingFull c (n + 1) = ((greetingFull c n).1, (greetingFull c n).2.map (· + 1)) := by
    unfold greetingFull
    split
    · split
      · rfl
      · split <;> rfl
    · rfl
  unfold greetingTail
  split
  · rfl
  · exact hfull

/-- Feeding nothing changes nothing while the greeting is not complete. -/
theorem feedGreeting_nil {c : Conn τ cap} (h : c.greetingPos < greetingLen) : feedGreeting c [] = (c, .ok 0) := by
  obtain ⟨buf, hc, he⟩ := feedGreeting_eq (Nat.le_of_lt h) []
  have hbuf : buf = c.greetingBuf := by
    apply List.Vector.eq
    rw [(toList_of_copyInto hc).2, List.take_nil, splice_nil]
  have ht : c.greetingTaken [] = 0 := Nat.zero_min _
  have hcheck : greetingCheck c.greetingPos c.greetingPos c.greetingBuf = .ok () := by
    rw [greetingCheck, if_neg (by omega)]
  rw [he, hbuf, ht, Nat.add_zero]
  unfold greetingTail
  simp only [withGreeting_greetingPos, withGreeting_greetingBuf, hcheck]
  exact greetingFull_of_lt h 0

/-- What a feed of the greeting does: it comes upon a byte that is rejected, it buffers a part of the greeting, or it
completes an accepted greeting, which moves the state on when our own greeting is sent. -/
theorem feedGreeting_spec {c : Conn τ cap} (h : c.greetingPos ≤ greetingLen) (input : List UInt8) :
    ∃ buf, buf.toList = splice c.greetingBuf.toList c.greetingPos (input.take (c.greetingTaken input)) ∧
      ((∃ e, feedGreeting c input =
            (c.withGreeting buf (c.greetingPos + c.greetingTaken input), .error (.err (.greetingError e))) ∧
          (greetingCheck c.greetingPos (c.greetingPos + c.greetingTaken input) buf = .error e ∨
            c.greetingPos + c.greetingTaken input = greetingLen ∧ parsePeerGreeting c.mechanism buf = .error e)) ∨
        (greetingCheck c.greetingPos (c.greetingPos + c.greetingTaken input) buf = .ok () ∧
          c.greetingPos + c.greetingTaken input < greetingLen ∧
          feedGreeting c input =
            (c.withGreeting buf (c.greetingPos + c.greetingTaken input), .ok (c.greetingTaken input))) ∨
        (∃ g, c.greetingPos + c.greetingTaken input = greetingLen ∧ parsePeerGreeting c.mechanism buf = .ok g ∧
          feedGreeting c input =
            (c.greeted buf g, .ok (c.greetingTaken input)))) := by
  obtain ⟨buf, hc, he⟩ := feedGreeting_eq h input
  refine ⟨buf, (toList_of_copyInto hc).2, ?_⟩
  rw [he]
  have hle : c.greetingPos + c.greetingTaken input ≤ greetingLen := by
    unfold greetingTaken greetingLen at *
    omega
  unfold greetingTail
  simp only [withGreeting_greetingPos, withGreeting_greetingBuf]
  cases hcheck : greetingCheck c.greetingPos (c.greetingPos + c.greetingTaken input) buf with
  | error e => exact .inl ⟨e, rfl, .inl rfl⟩
  | ok u =>
    rcases Nat.lt_or_eq_of_le hle with hlt | heq
    · exact .inr (.inl ⟨rfl, hlt, greetingFull_of_lt hlt _⟩)
    · simp only [greetingFull, heq, withGreeting, if_true]
      cases hp : parsePeerGreeting c.mechanism buf with
      | error e => exact .inl ⟨e, rfl, .inr ⟨trivial, rfl⟩⟩
      | ok g =>
        refine .inr (.inr ⟨g, trivial, rfl, ?_⟩)
        unfold greeted
        cases c.ourGreetingSent <;> rfl

/-- The check of the first eleven bytes comes at the byte that completes them: in two copies it is made by one of the two,
on the same bytes. -/
theorem greetingCheck_split {pos n : Nat} {buf1 buf2 : List.Vector UInt8 64}
    (hb : buf2.toList.take (pos + 1) = buf1.toList.take (pos + 1)) :
    greetingCheck pos (pos + 1 + n) buf2 =
      match greetingCheck pos (pos + 1) buf1 with
      | .error e => .error e
      | .ok () => greetingCheck (pos + 1) (pos + 1 + n) buf2 := by
  unfold greetingCheck
  rcases Nat.lt_trichotomy (pos + 1) greetingPartialLen with hlt | heq | hgt
  · have h1 : pos < greetingPartialLen := by omega
    have h2 : ¬pos + 1 ≥ greetingPartialLen := by omega
    simp only [h1, hlt, h2, true_and, and_false, if_false]
  · have h1 : pos < greetingPartialLen ∧ pos + 1 + n ≥ greetingPartialLen := by omega
    have h2 : pos < greetingPartialLen ∧ pos + 1 ≥ greetingPartialLen := by omega
    have h3 : ¬(pos + 1 < greetingPartialLen ∧ pos + 1 + n ≥ greetingPartialLen) := by omega
    rw [if_pos h1, if_pos h2, if_neg h3, ← heq, hb]
    cases parsePartialGreeting (buf1.toList.take (pos + 1)) <;> rfl
  · have h1 : ¬pos < greetingPartialLen := by omega
    have h2 : ¬pos + 1 < greetingPartialLen := by omega
    simp only [h1, h2, false_and, if_false]

/-- A feed of the greeting, byte by byte: the first byte may complete the greeting, or be rejected, or be followed by the
rest. A rejected greeting leaves different bytes in the buffer, and nothing else. -/
theorem feedGreeting_cons {c : Conn τ cap} (h : c.greetingPos < greetingLen) (b : UInt8) (rest : List UInt8) :
    (∃ f buf pos buf' pos', feedGreeting c [b] = (c.withGreeting buf pos, .error f) ∧
      feedGreeting c (b :: rest) = (c.withGreeting buf' pos', .error f)) ∨
    (∃ c1, feedGreeting c [b] = (c1, .ok 1) ∧ c1.greetingPos = greetingLen ∧ feedGreeting c (b :: rest) = (c1, .ok 1)) ∨
    (∃ buf, feedGreeting c [b] = (c.withGreeting buf (c.greetingPos + 1), .ok 1) ∧ c.greetingPos + 1 < greetingLen ∧
      feedGreeting c (b :: rest) =
        ((feedGreeting (c.withGreeting buf (c.greetingPos + 1)) rest).1,
          (feedGreeting (c.withGreeting buf (c.greetingPos + 1)) rest).2.map (· + 1))) := by
  have ht1 : c.greetingTaken [b] = 1 := by
    simp only [greetingTaken, List.length_singleton]
    omega
  obtain ⟨buf1, hc1, h1⟩ := feedGreeting_eq (Nat.le_of_lt h) [b]
  rw [ht1] at hc1 h1
  rw [show [b].take 1 = [b] from rfl] at hc1
  obtain ⟨buf2, hc2, h2⟩ := feedGreeting_eq (Nat.le_of_lt h) (b :: rest)
  rw [h1, h2]
  by_cases hlast : c.greetingPos + 1 = greetingLen
  · -- The byte is the last of the greeting: nothing of the rest is taken.
    have ht2 : c.greetingTaken (b :: rest) = 1 := by
      simp only [greetingTaken, List.length_cons]
      omega
    rw [ht2] at hc2 ⊢
    rw [List.take_one, List.head?_cons, Option.toList_some, hc1] at hc2
    cases hc2
    cases ht : greetingTail c.greetingPos 1 (c.withGreeting buf1 (c.greetingPos + 1)) with
    | mk c1 r =>
      cases r with
      | error f =>
        obtain ⟨rfl, _⟩ := greetingTail_error ht
        exact .inl ⟨f, buf1, _, buf1, _, rfl, rfl⟩
      | ok n =>
        obtain ⟨hn, hpos⟩ := greetingTail_ok ht
        subst hn
        exact .inr (.inl ⟨c1, rfl, by rw [hpos]; exact hlast, rfl⟩)
  · -- The rest of the copy follows behind the byte.
    have hlt : c.greetingPos + 1 < greetingLen := by omega
    have hle : (c.withGreeting buf1 (c.greetingPos + 1)).greetingPos ≤ greetingLen := Nat.le_of_lt hlt
    have ht2 : c.greetingTaken (b :: rest) = (c.withGreeting buf1 (c.greetingPos + 1)).greetingTaken rest + 1 := by
      simp only [greetingTaken, withGreeting, List.length_cons]
      omega
    obtain ⟨buf3, hc3, h3⟩ := feedGreeting_eq hle rest
    generalize (c.withGreeting buf1 (c.greetingPos + 1)).greetingTaken rest = k at ht2 hc3 h3
    rw [ht2] at hc2 ⊢
    have hfit : c.greetingPos + (k + 1) ≤ 64 := by
      have : c.greetingTaken (b :: rest) ≤ 64 - c.greetingPos := Nat.min_le_right _ _
      simp only [greetingLen] at hlt
      omega
    obtain ⟨buf', hx, hy⟩ := copyInto_copyInto (ε := ConnError) c.greetingBuf c.greetingPos [b] (rest.take k)
      (by simp only [List.length_append, List.length_singleton, List.length_take]; omega)
    rw [hc1] at hx
    cases hx
    rw [List.take_succ_cons] at hc2
    rw [List.length_singleton, List.singleton_append] at hy
    simp only [withGreeting] at hc3
    rw [hc2, hc3] at hy
    cases hy
    have hb : buf2.toList.take (c.greetingPos + 1) = buf1.toList.take (c.greetingPos + 1) := by
      rw [(toList_of_copyInto hc3).2, splice_take_le (by rw [buf1.toList_length]; omega) (Nat.le_refl _)]
    have hk : c.greetingPos + (k + 1) = c.greetingPos + 1 + k := by omega
    have hcheck := greetingCheck_split (n := k) hb
    rw [hk]
    unfold greetingTail
    simp only [withGreeting_greetingPos, withGreeting_greetingBuf, hcheck]
    cases greetingCheck c.greetingPos (c.greetingPos + 1) buf1 with
    | error e => exact .inl ⟨_, buf1, _, buf2, _, rfl, rfl⟩
    | ok u =>
      refine .inr (.inr ⟨buf1, greetingFull_of_lt hlt 1, hlt, ?_⟩)
      rw [h3, ← greetingTail_succ]
      rfl

end Conn
end Mzmq
